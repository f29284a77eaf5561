import Fanout.Proofs.Toml.Documents
import Fanout.Proofs.Toml.Lines
import Fanout.Settings

/-!
# Settings survive saving

The text of settings is a few lines, from which they are read back whatever strings they hold
(`ofText_render`). Settings that were loaded have an endpoint that is not blank and an interval that
can be written, so they can be saved and loaded again. Main statement: which settings can be saved,
and what comes of loading them (`saved_settings`).
-/

namespace Fanout.Settings

open Toml

variable {settings : Settings} {text : String}

def lines (settings : Settings) : List Line :=
  [.pair "id" (Text.render settings.id) (.text settings.id), .blank, .header "broker",
    .pair "endpoint" (Text.render settings.endpoint) (.text settings.endpoint),
    .pair "reconnect_interval_ms" (toString settings.reconnectIntervalMs.toNat).toList
      (.scalar (.integer settings.reconnectIntervalMs.toNat))] ++
    match settings.hub with
    | some address => [.blank, .header "hub", .pair "addr" (Text.render address) (.text address)]
    | none => []

/-- The document that settings are written as. -/
def entries (settings : Settings) : Entries :=
  [("id", .text settings.id),
    ("broker", .table .header
      [("endpoint", .text settings.endpoint),
        ("reconnect_interval_ms", .scalar (.integer settings.reconnectIntervalMs.toNat))])] ++
    match settings.hub with
    | some address => [("hub", .table .header [("addr", .text address)])]
    | none => []

theorem toList_textLine (name value : String) :
    (textLine name value).toList = (Line.pair name (Text.render value) (.text value)).chars := by
  have equals : " = ".toList = [' ', '=', ' '] := rfl
  have feed : "\n".toList = ['\n'] := rfl
  simp [textLine, Line.chars, equals, feed]

theorem toList_render (settings : Settings) :
    settings.render.toList = settings.lines.flatMap Line.chars := by
  have broker : "\n[broker]\n".toList = Line.blank.chars ++ (Line.header "broker").chars := rfl
  have interval : "reconnect_interval_ms = ".toList =
      "reconnect_interval_ms".toList ++ [' ', '=', ' '] := rfl
  have hub : "\n[hub]\n".toList = Line.blank.chars ++ (Line.header "hub").chars := rfl
  have feed : "\n".toList = ['\n'] := rfl
  unfold render lines
  cases settings.hub with
  | none => simp [toList_textLine, broker, interval, feed, Line.chars]
  | some address => simp [toList_textLine, broker, interval, hub, feed, Line.chars]

theorem plain_lines (within : settings.reconnectIntervalMs.toNat ≤ Scalar.greatest) :
    ∀ line ∈ settings.lines, line.Plain := by
  have text {name : String} (bare : IsBare name) (value : String) :
      (Line.pair name (Text.render value) (.text value)).Plain :=
    ⟨bare, reads_text value⟩
  have header {name : String} (bare : IsBare name) : (Line.header name).Plain := bare
  have interval : IsBare "reconnect_interval_ms" := by decide
  unfold lines
  rw [List.forall_mem_append]
  constructor
  · simp only [List.forall_mem_cons]
    exact ⟨text (by decide) _, trivial, header (by decide), text (by decide) _,
      ⟨interval, reads_digits within⟩, List.forall_mem_nil _⟩
  · cases settings.hub with
    | none => exact List.forall_mem_nil _
    | some address =>
      simp only [List.forall_mem_cons]
      exact ⟨trivial, header (by decide), text (by decide) _, List.forall_mem_nil _⟩

/-- What the lines of settings say, one after the other, is their document. -/
theorem foldlM_lines (settings : Settings) :
    (settings.lines.foldlM Line.change? {}).map (·.root) = some settings.entries := by
  unfold lines entries
  cases settings.hub with
  | none => rfl
  | some address => rfl

theorem parse?_render (within : settings.reconnectIntervalMs.toNat ≤ Scalar.greatest) :
    parse? settings.render = some settings.entries :=
  (parse?_of_lines (plain_lines within) (toList_render settings)).trans (foldlM_lines settings)

theorem uint64?_toNat (n : UInt64) : uint64? (.scalar (.integer n.toNat)) = some n := by
  rw [uint64?, if_pos (Int.natCast_nonneg _), Int.toNat_natCast, UInt64.ofNat_toNat]

theorem ofEntries?_entries (settings : Settings) :
    ofEntries? settings.entries = some settings := by
  obtain ⟨id, endpoint, interval, hub⟩ := settings
  have onlyInterval : ofEntries? (entries { id, endpoint, reconnectIntervalMs := interval, hub }) =
      (uint64? (.scalar (.integer interval.toNat))).map fun reconnectIntervalMs =>
        { id, endpoint, reconnectIntervalMs, hub } := by
    cases hub with
    | none => rfl
    | some address => rfl
  rw [onlyInterval, uint64?_toNat, Option.map_some]

/-- What is written for settings is read back, unless the endpoint is blank. -/
theorem ofText_render (within : settings.reconnectIntervalMs.toNat ≤ Scalar.greatest) :
    ofText settings.render =
      if Text.allBlank settings.endpoint then .error .emptyEndpoint else .ok settings := by
  rw [ofText, parse?_render within, Option.bind_some, ofEntries?_entries]

theorem toNat_le_of_uint64? {node : Node} {n : UInt64} (fits : node.Fits)
    (h : uint64? node = some n) : n.toNat ≤ Scalar.greatest := by
  unfold uint64? at h
  split at h
  · split_ifs at h
    cases h
    cases fits with
    | scalar within =>
      have whole := Int.toNat_le.2 (within _ rfl)
      exact Nat.le_trans (UInt64.toNat_ofNat' ▸ Nat.mod_le _ _) whole
  · cases h

theorem fits_of_section? {names : List String} {node : Node} {fields : Entries}
    (fits : node.Fits) (h : section? names node = some fields) : fields.Fits := by
  cases fits with
  | table inside =>
    cases h
    exact inside
  | array inside =>
    cases h
    exact fun field member => inside _ (List.of_mem_zip member).2
  | text => cases h
  | scalar => cases h
  | tables => cases h

theorem toNat_le_of_ofEntries? {entries : Entries} (fits : entries.Fits)
    (h : ofEntries? entries = some settings) :
    settings.reconnectIntervalMs.toNat ≤ Scalar.greatest := by
  obtain ⟨_, -, h⟩ := Option.bind_eq_some_iff.1 h
  obtain ⟨id, -, h⟩ := Option.bind_eq_some_iff.1 h
  obtain ⟨node, known, h⟩ := Option.bind_eq_some_iff.1 h
  obtain ⟨broker, fields, h⟩ := Option.bind_eq_some_iff.1 h
  obtain ⟨_, -, h⟩ := Option.bind_eq_some_iff.1 h
  obtain ⟨endpoint, -, h⟩ := Option.bind_eq_some_iff.1 h
  have inside : broker.Fits := fits_of_section? (fits.of_lookup known) fields
  dsimp only at h
  split at h
  -- Whatever the interval is, the rest keeps it.
  all_goals
    obtain ⟨interval, read, h⟩ := Option.bind_eq_some_iff.1 h
    have kept : settings.reconnectIntervalMs = interval := by
      split at h
      · obtain ⟨_, -, h⟩ := Option.bind_eq_some_iff.1 h
        obtain ⟨_, -, h⟩ := Option.bind_eq_some_iff.1 h
        obtain ⟨_, -, h⟩ := Option.bind_eq_some_iff.1 h
        obtain ⟨_, -, same⟩ := Option.bind_eq_some_iff.1 h
        cases same
        rfl
      · obtain ⟨_, -, same⟩ := Option.bind_eq_some_iff.1 h
        cases same
        rfl
    rw [kept]
  next known _ => exact toNat_le_of_uint64? (inside.of_lookup known) read
  next =>
    cases read
    decide

/-- An interval that is read is one that can be written. -/
theorem toNat_le_of_ofText (h : ofText text = .ok settings) :
    settings.reconnectIntervalMs.toNat ≤ Scalar.greatest := by
  unfold ofText at h
  split at h
  next => cases h
  next known =>
    split_ifs at h
    cases h
    obtain ⟨entries, parsed, spelled⟩ := Option.bind_eq_some_iff.1 known
    exact toNat_le_of_ofEntries? (fits_of_parse? parsed) spelled

theorem allBlank_of_ofText (h : ofText text = .ok settings) :
    Text.allBlank settings.endpoint = false := by
  unfold ofText at h
  split at h
  · cases h
  · split_ifs at h with blank
    cases h
    exact Bool.eq_false_iff.2 blank

theorem ofFile_ofText (text : String) : ofFile (some (Bytes.ofText text)) = ofText text := by
  rw [ofFile, Option.bind_some, Bytes.toText?_ofText]

theorem toText_eq (within : settings.reconnectIntervalMs.toNat ≤ Scalar.greatest) :
    toText settings = .ok settings.render :=
  if_pos within

/-- Settings cannot be saved exactly when their interval does not fit an integer. Otherwise the
saved file loads back as the same settings, or not at all if the endpoint is blank. So whatever is
loaded can be saved and loads back unchanged. -/
theorem saved_settings (settings : Settings) :
    (if 0x7FFFFFFFFFFFFFFF < settings.reconnectIntervalMs.toNat then
        ∃ fault, toText settings = .error fault ∧ fault.code? = some .configInvalid
      else
        ∃ saved, toText settings = .ok saved ∧
          if Text.allBlank settings.endpoint then
            ∃ fault, ofFile (some (Bytes.ofText saved)) = .error fault ∧
              fault.code? = some .configInvalid
          else
            ofFile (some (Bytes.ofText saved)) = .ok settings) ∧
      ∀ text, ofText text = .ok settings →
        ∃ saved, toText settings = .ok saved ∧
          ofFile (some (Bytes.ofText saved)) = .ok settings := by
  constructor
  · split_ifs with beyond blank
    · have outside : ¬settings.reconnectIntervalMs.toNat ≤ Scalar.greatest := Nat.not_le.2 beyond
      exact ⟨.unwritableSettings, if_neg outside, rfl⟩
    · have within : settings.reconnectIntervalMs.toNat ≤ Scalar.greatest := Nat.not_lt.1 beyond
      refine ⟨settings.render, toText_eq within, .emptyEndpoint, ?_, rfl⟩
      rw [ofFile_ofText, ofText_render within, if_pos blank]
    · have within : settings.reconnectIntervalMs.toNat ≤ Scalar.greatest := Nat.not_lt.1 beyond
      refine ⟨settings.render, toText_eq within, ?_⟩
      rw [ofFile_ofText, ofText_render within, if_neg blank]
  · intro text loaded
    have within := toNat_le_of_ofText loaded
    refine ⟨settings.render, toText_eq within, ?_⟩
    rw [ofFile_ofText, ofText_render within, if_neg]
    exact Bool.eq_false_iff.1 (allBlank_of_ofText loaded)

/-- Settings with quotes, a line feed and a control character, and with the greatest interval that
can be saved. -/
def quoted : Settings :=
  { id := "a \"b\"\n\x01", endpoint := "hub:7400", reconnectIntervalMs := 9223372036854775807 }

/-- A text of these settings that differs from the one that is saved. -/
def quotedSource : String :=
  "id = \"a \\\"b\\\"\\n\\u0001\"\nbroker = ['hub:7400', 9223372036854775807]\n"

theorem saved_settings_quoted :
    ofText quotedSource = .ok quoted ∧
      ∃ saved, toText quoted = .ok saved ∧ ofFile (some (Bytes.ofText saved)) = .ok quoted := by
  have parsed : parse? quotedSource =
      some [("id", .text quoted.id),
        ("broker", .array [.text "hub:7400", .scalar (.integer 9223372036854775807)])] := rfl
  have loaded : ofText quotedSource = .ok quoted := by
    rw [ofText, parsed]
    rfl
  exact ⟨loaded, (saved_settings quoted).2 quotedSource loaded⟩

end Fanout.Settings
