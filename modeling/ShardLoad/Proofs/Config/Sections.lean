import ShardLoad.Config.Schema
import ShardLoad.Config.Toml
import ShardLoad.Proofs.Toml.Tables

/-!
# Sections are read back

A section is read field by field, in the order of the names, into a record that starts with the
defaults.  A field that is there puts its value into the record; where one is not there, the
default stays, and that is right if the default is what was meant.  So whatever fields are left out
with their defaults, the record goes through the same states.

* `Fills`, `Fills.foldlM`: the states that a record goes through.
* `settings_written`, `target_written`, `payload_written`, `step_written`: the sections.
* `ofTable_present`: the whole.
-/

namespace ShardLoad

open Toml (Value Plain tableOf)

/-! ## Fields that may be left out -/

/-- The fields of a keyed list that are there. -/
def present (fields : Keyed (Bool × Value)) : Keyed Value :=
  (fields.filter fun kv => kv.2.1).map fun kv => (kv.1, kv.2.2)

/-- Fields may be left out before they are sorted or afterwards. -/
theorem ofPairs_present {fields : List (String × Bool × Value)}
    (h : (fields.map Prod.fst).Nodup) :
    Keyed.ofPairs (present fields) = present (Keyed.ofPairs fields) := by
  unfold present
  rw [Keyed.ofPairs_map, Keyed.ofPairs_filter _ h]

/-- The states that a record goes through: a field that is there is set, and one that is not there
changes nothing. -/
inductive Fills {α : Type} (set : α → String × Value → SchemaResult α) :
    Keyed (Bool × Value) → α → α → Prop where
  | nil (a : α) : Fills set [] a a
  | cons {key : String} {kept : Bool} {v : Value} {fields : Keyed (Bool × Value)} {a c : α} (b : α)
      (hset : set a (key, v) = .ok b) (hskip : kept = false → a = b) (h : Fills set fields b c) :
      Fills set ((key, kept, v) :: fields) a c

/-- A field that is not there has its default: so it makes no difference whether it is set. -/
theorem Fills.field {α β : Type} {set : α → String × Value → SchemaResult α} {key : String}
    {kept : Bool} {v : Value} {fields : Keyed (Bool × Value)} {c : α} (put : β → α) (x y : β)
    (hset : set (put y) (key, v) = .ok (put x)) (hskip : kept = false → x = y)
    (h : Fills set fields (put x) c) : Fills set ((key, kept, v) :: fields) (put y) c :=
  .cons (put x) hset (fun hk => congrArg put (hskip hk).symm) h

/-- **A record has at the end what it was to be filled with.** -/
theorem Fills.foldlM {α : Type} {set : α → String × Value → SchemaResult α}
    {fields : Keyed (Bool × Value)} {a c : α} (h : Fills set fields a c) :
    (present fields).foldlM set a = .ok c := by
  induction h with
  | nil a => rfl
  | @cons key kept v fields a c b hset hskip _ ih =>
    cases kept with
    | true =>
      have hkept : present ((key, true, v) :: fields) = (key, v) :: present fields := rfl
      rw [hkept, List.foldlM_cons, hset]
      exact ih
    | false =>
      have hleft : present ((key, false, v) :: fields) = present fields := rfl
      rw [hleft, hskip rfl]
      exact ih

/-- The fields of a section, and whether they are there. -/
def marked (omitted : Part → Bool) (entries : List Entry) : List (String × Bool × Value) :=
  entries.map fun e => (e.name, e.isKept omitted, .scalar e.value.scalar)

/-- The table of a section holds the fields that are written. -/
theorem tableOf_keptEntries {omitted : Part → Bool} {entries : List Entry}
    (h : (entries.map Entry.name).Nodup) :
    tableOf (keptEntries omitted entries) = present (Keyed.ofPairs (marked omitted entries)) := by
  have hnames : (marked omitted entries).map Prod.fst = entries.map Entry.name := by
    unfold marked
    rw [List.map_map]
    rfl
  rw [← ofPairs_present (hnames ▸ h), tableOf, keptEntries, present, marked, List.filter_map,
    List.map_map, List.map_map]
  rfl

/-! ## Single values -/

section Values

variable {α : Type}

theorem natural_nat {n bound : Nat} (h : n < bound) (wanted : String) :
    Schema.natural wanted bound (.scalar (.int n)) = .ok n := by
  simp [Schema.natural, h]

theorem word16_toNat (n : UInt16) : Schema.word16 (.scalar (.int n.toNat)) = .ok n := by
  rw [Schema.word16, natural_nat n.toNat_lt]
  exact congrArg Except.ok (UInt16.ofNat_toNat)

theorem word32_toNat (n : UInt32) : Schema.word32 (.scalar (.int n.toNat)) = .ok n := by
  rw [Schema.word32, natural_nat n.toNat_lt]
  exact congrArg Except.ok (UInt32.ofNat_toNat)

theorem word64_toNat (n : UInt64) : Schema.word64 (.scalar (.int n.toNat)) = .ok n := by
  rw [Schema.word64, natural_nat n.toNat_lt]
  exact congrArg Except.ok (UInt64.ofNat_toNat)

theorem size_toNat (n : UInt64) : Schema.size (.scalar (.int n.toNat)) = .ok n := by
  rw [Schema.size, natural_nat n.toNat_lt]
  exact congrArg Except.ok (UInt64.ofNat_toNat)

theorem selection_name (s : Selection) :
    Schema.variant Selection.all Selection.name (.scalar (.string s.name)) = .ok s := by
  cases s <;> rfl

theorem connection_name (c : Connection) :
    Schema.variant Connection.all Connection.name (.scalar (.string c.name)) = .ok c := by
  cases c <;> rfl

theorem transactionKind_name (k : TransactionKind) :
    Schema.variant TransactionKind.all TransactionKind.name (.scalar (.string k.name)) = .ok k := by
  cases k <;> rfl

theorem operation_name (o : Operation) :
    Schema.operation (.scalar (.string o.name)) = .ok o := by
  cases o <;> rfl

end Values

/-! ## Sections -/

/-- Only defaults are left out. -/
def OmitsDefaults (omitted : Part → Bool) (c : Config) : Prop :=
  ∀ part, omitted part = true → part.IsDefault c

/-- A part whose field is not there is one that was left out. -/
theorem OmitsDefaults.isDefault {omitted : Part → Bool} {c : Config} (h : OmitsDefaults omitted c)
    {part : Part} (hkept : (!omitted part) = false) : part.IsDefault c :=
  h part (by simpa using hkept)

/-- Names that can be the keys of one table: bare ones, and no two the same. -/
structure WellNamed (names : List String) : Prop where
  bare : ∀ name ∈ names, Toml.Bare name
  nodup : names.Nodup

theorem Settings.wellNamed (s : Settings) : WellNamed (s.entries.map Entry.name) := by
  have hnames : WellNamed ["virtual_users", "duration_secs", "pacing_ms", "timeout_ms"] :=
    ⟨by decide, by decide⟩
  have hnames' : WellNamed
      ["virtual_users", "duration_secs", "pacing_ms", "timeout_ms", "expected_interval_ms"] :=
    ⟨by decide, by decide⟩
  obtain ⟨users, duration, pacing, timeout, interval⟩ := s
  cases interval with
  | none => exact hnames
  | some i => exact hnames'

theorem Target.wellNamed (t : Target) : WellNamed (t.entries.map Entry.name) :=
  have hnames : WellNamed
      ["host", "base_port", "pool_size", "plaintext", "selection", "connection"] :=
    ⟨by decide, by decide⟩
  hnames

theorem Payload.wellNamed (p : Payload) : WellNamed (p.entries.map Entry.name) :=
  have hnames : WellNamed
      ["key_length", "value_length", "auxiliary", "transaction_type", "wait"] :=
    ⟨by decide, by decide⟩
  hnames

theorem Step.wellNamed (s : Step) : WellNamed (s.entries.map Entry.name) :=
  have hnames : WellNamed ["type", "weight"] := ⟨by decide, by decide⟩
  hnames

/-- A value that was read is put into the record. -/
theorem map_read {α β : Type} {r : SchemaResult β} {x : β} (h : r = .ok x) (put : β → α) :
    (do return put (← r)) = (.ok (put x) : SchemaResult α) := by
  rw [h]
  rfl

variable {omitted : Part → Bool} {c : Config}

theorem target_written (h : OmitsDefaults omitted c) :
    Schema.target (.table (tableOf (keptEntries omitted c.target.entries))) = .ok c.target := by
  have hsorted : Keyed.ofPairs (marked omitted c.target.entries) =
      [("base_port", !omitted .basePort, .scalar (.int c.target.basePort.toNat)),
        ("connection", !omitted .connection, .scalar (.string c.target.connection.name)),
        ("host", !omitted .host, .scalar (.string c.target.host)),
        ("plaintext", !omitted .plaintext, .scalar (.bool c.target.plaintext)),
        ("pool_size", !omitted .poolSize, .scalar (.int c.target.poolSize.toNat)),
        ("selection", !omitted .selection, .scalar (.string c.target.selection.name))] := by
    simp +decide only [marked, Target.entries, Entry.optional, Keyed.ofPairs, Keyed.insert,
      Keyed.update, List.map_cons, List.map_nil, List.foldl_cons, List.foldl_nil, if_true, if_false]
    rfl
  let t := c.target
  let d := Target.default
  rw [tableOf_keptEntries t.wellNamed.nodup, hsorted]
  refine Fills.foldlM (a := d) ?_
  refine .field
    (fun x => (⟨d.host, x, d.poolSize, d.plaintext, d.selection, d.connection⟩ : Target))
    t.basePort d.basePort (map_read (word16_toNat _) _) (fun hk => h.isDefault hk) ?_
  refine .field
    (fun x => (⟨d.host, t.basePort, d.poolSize, d.plaintext, d.selection, x⟩ : Target))
    t.connection d.connection (map_read (connection_name _) _) (fun hk => h.isDefault hk) ?_
  refine .field
    (fun x => (⟨x, t.basePort, d.poolSize, d.plaintext, d.selection, t.connection⟩ : Target))
    t.host d.host rfl (fun hk => h.isDefault hk) ?_
  refine .field
    (fun x => (⟨t.host, t.basePort, d.poolSize, x, d.selection, t.connection⟩ : Target))
    t.plaintext d.plaintext rfl (fun hk => h.isDefault hk) ?_
  refine .field
    (fun x => (⟨t.host, t.basePort, x, t.plaintext, d.selection, t.connection⟩ : Target))
    t.poolSize d.poolSize (map_read (word16_toNat _) _) (fun hk => h.isDefault hk) ?_
  exact .field
    (fun x => (⟨t.host, t.basePort, t.poolSize, t.plaintext, x, t.connection⟩ : Target))
    t.selection d.selection (map_read (selection_name _) _) (fun hk => h.isDefault hk) (.nil t)

theorem payload_written (h : OmitsDefaults omitted c) :
    Schema.payload (.table (tableOf (keptEntries omitted c.payload.entries))) = .ok c.payload := by
  have hsorted : Keyed.ofPairs (marked omitted c.payload.entries) =
      [("auxiliary", !omitted .auxiliary, .scalar (.string c.payload.auxiliary)),
        ("key_length", !omitted .keyLength, .scalar (.int c.payload.keyLength.toNat)),
        ("transaction_type", !omitted .transactionKind,
          .scalar (.string c.payload.transactionKind.name)),
        ("value_length", !omitted .valueLength, .scalar (.int c.payload.valueLength.toNat)),
        ("wait", !omitted .wait, .scalar (.bool c.payload.wait))] := by
    simp +decide only [marked, Payload.entries, Entry.optional, Keyed.ofPairs, Keyed.insert,
      Keyed.update, List.map_cons, List.map_nil, List.foldl_cons, List.foldl_nil, if_true, if_false]
    rfl
  let p := c.payload
  let d := Payload.default
  rw [tableOf_keptEntries p.wellNamed.nodup, hsorted]
  refine Fills.foldlM (a := d) ?_
  refine .field (fun x => (⟨d.keyLength, d.valueLength, x, d.transactionKind, d.wait⟩ : Payload))
    p.auxiliary d.auxiliary rfl (fun hk => h.isDefault hk) ?_
  refine .field (fun x => (⟨x, d.valueLength, p.auxiliary, d.transactionKind, d.wait⟩ : Payload))
    p.keyLength d.keyLength (map_read (size_toNat _) _) (fun hk => h.isDefault hk) ?_
  refine .field (fun x => (⟨p.keyLength, d.valueLength, p.auxiliary, x, d.wait⟩ : Payload))
    p.transactionKind d.transactionKind (map_read (transactionKind_name _) _)
    (fun hk => h.isDefault hk) ?_
  refine .field (fun x => (⟨p.keyLength, x, p.auxiliary, p.transactionKind, d.wait⟩ : Payload))
    p.valueLength d.valueLength (map_read (size_toNat _) _) (fun hk => h.isDefault hk) ?_
  exact .field
    (fun x => (⟨p.keyLength, p.valueLength, p.auxiliary, p.transactionKind, x⟩ : Payload))
    p.wait d.wait rfl (fun hk => h.isDefault hk) (.nil p)

/-- A field that is always there is set. -/
theorem Fills.required {α β : Type} {set : α → String × Value → SchemaResult α} {key : String}
    {v : Value} {fields : Keyed (Bool × Value)} {a c : α} (put : β → α) {x : β}
    (hset : set a (key, v) = .ok (put x)) (h : Fills set fields (put x) c) :
    Fills set ((key, true, v) :: fields) a c :=
  .cons (put x) hset (fun hk => Bool.noConfusion hk) h

/-- The settings before any field was found. -/
def noSettings : Schema.SettingsDraft :=
  ⟨none, none, Settings.defaultPacing, Settings.defaultTimeout, none⟩

/-- The settings when all fields were found. -/
def foundSettings (s : Settings) : Schema.SettingsDraft :=
  ⟨some s.virtualUsers, some s.durationSecs, s.pacing, s.timeout, s.expectedInterval⟩

/-- The last fields of the settings are read alike whether the expected interval is set or not. -/
theorem fills_lastSettings (h : OmitsDefaults omitted c) :
    Fills Schema.setSettings
      [("pacing_ms", !omitted .pacing, .scalar (.int c.settings.pacing.toNat)),
        ("timeout_ms", !omitted .timeout, .scalar (.int c.settings.timeout.toNat)),
        ("virtual_users", true, .scalar (.int c.settings.virtualUsers.toNat))]
      { noSettings with
        durationSecs := some c.settings.durationSecs
        expectedInterval := c.settings.expectedInterval }
      (foundSettings c.settings) := by
  let s := c.settings
  let draft (users : Option UInt32) (pacing timeout : UInt64) : Schema.SettingsDraft :=
    ⟨users, some s.durationSecs, pacing, timeout, s.expectedInterval⟩
  refine .field (fun x => draft none x Settings.defaultTimeout) s.pacing Settings.defaultPacing
    (map_read (word64_toNat _) _) (fun hk => h.isDefault hk) ?_
  refine .field (fun x => draft none s.pacing x) s.timeout Settings.defaultTimeout
    (map_read (word64_toNat _) _) (fun hk => h.isDefault hk) ?_
  exact .required (fun x => draft (some x) s.pacing s.timeout) (map_read (word32_toNat _) _)
    (.nil _)

theorem fills_settings (h : OmitsDefaults omitted c) :
    Fills Schema.setSettings (Keyed.ofPairs (marked omitted c.settings.entries)) noSettings
      (foundSettings c.settings) := by
  have hlast := fills_lastSettings h
  let draft (interval : Option UInt64) : Schema.SettingsDraft :=
    { noSettings with durationSecs := some c.settings.durationSecs, expectedInterval := interval }
  cases hinterval : c.settings.expectedInterval with
  | none =>
    have hsorted : Keyed.ofPairs (marked omitted c.settings.entries) =
        [("duration_secs", true, .scalar (.int c.settings.durationSecs.toNat)),
          ("pacing_ms", !omitted .pacing, .scalar (.int c.settings.pacing.toNat)),
          ("timeout_ms", !omitted .timeout, .scalar (.int c.settings.timeout.toNat)),
          ("virtual_users", true, .scalar (.int c.settings.virtualUsers.toNat))] := by
      simp +decide only [marked, Settings.entries, hinterval, Entry.optional, Entry.required,
        Keyed.ofPairs, Keyed.insert, Keyed.update, List.map_cons, List.map_nil, List.cons_append,
        List.nil_append, List.foldl_cons, List.foldl_nil, if_true, if_false]
      rfl
    rw [hinterval] at hlast
    rw [hsorted]
    exact .required (fun x => { noSettings with durationSecs := some x })
      (map_read (word64_toNat _) _) hlast
  | some i =>
    have hsorted : Keyed.ofPairs (marked omitted c.settings.entries) =
        [("duration_secs", true, .scalar (.int c.settings.durationSecs.toNat)),
          ("expected_interval_ms", !omitted .expectedInterval, .scalar (.int i.toNat)),
          ("pacing_ms", !omitted .pacing, .scalar (.int c.settings.pacing.toNat)),
          ("timeout_ms", !omitted .timeout, .scalar (.int c.settings.timeout.toNat)),
          ("virtual_users", true, .scalar (.int c.settings.virtualUsers.toNat))] := by
      simp +decide only [marked, Settings.entries, hinterval, Entry.optional, Entry.required,
        Keyed.ofPairs, Keyed.insert, Keyed.update, List.map_cons, List.map_nil, List.cons_append,
        List.nil_append, List.foldl_cons, List.foldl_nil, if_true, if_false]
      rfl
    rw [hinterval] at hlast
    rw [hsorted]
    refine .required (fun x => { noSettings with durationSecs := some x })
      (map_read (word64_toNat _) _) ?_
    exact .field draft (some i) none (map_read (word64_toNat i) fun x => draft (some x))
      (fun hk => hinterval.symm.trans (h.isDefault hk)) hlast

theorem settings_written (h : OmitsDefaults omitted c) :
    Schema.settings (.table (tableOf (keptEntries omitted c.settings.entries))) =
      .ok c.settings := by
  rw [tableOf_keptEntries c.settings.wellNamed.nodup, Schema.settings, Schema.readSection]
  exact congrArg (· >>= _) (fills_settings h).foldlM

/-- A weight is held back as it is. -/
theorem hold_toNat (n : UInt32) : Schema.hold (.scalar (.int n.toNat)) = .ok () := by
  have hlt := n.toNat_lt
  have hfits : fitsWord (n.toNat : Nat) = true := by
    simp only [fitsWord, Bool.and_eq_true, decide_eq_true_eq]
    omega
  rw [Schema.hold, if_pos hfits]

/-- The fields of a step are always there. -/
theorem step_written (omitted : Part → Bool) (s : Step) :
    Schema.step (.table (tableOf (keptEntries omitted s.entries))) = .ok s := by
  have htable : tableOf (keptEntries omitted s.entries) =
      present [("type", true, .scalar (.string s.operation.name)),
        ("weight", true, .scalar (.int s.weight.toNat))] := by
    rw [tableOf_keptEntries s.wellNamed.nodup]
    simp +decide only [marked, Step.entries, Entry.required, Keyed.ofPairs, Keyed.insert,
      Keyed.update, List.map_cons, List.map_nil, List.foldl_cons, List.foldl_nil, if_false]
    rfl
  have htype : Schema.setOperation none ("type", .scalar (.string s.operation.name)) =
      .ok (some s.operation) := congrArg (some <$> ·) (operation_name s.operation)
  have hweight : Schema.setOperation (some s.operation)
      ("weight", .scalar (.int s.weight.toNat)) = .ok (some s.operation) :=
    congrArg (· >>= fun _ => Except.ok (some s.operation)) (hold_toNat s.weight)
  have hfills := Fills.required some htype (.required some hweight (.nil _))
  have hfound : Keyed.find? "weight"
      (present [("type", true, Value.scalar (.string s.operation.name)),
        ("weight", true, .scalar (.int s.weight.toNat))]) =
      some (.scalar (.int s.weight.toNat)) := rfl
  rw [htable, Schema.step, hfills.foldlM, hfound]
  exact map_read (word32_toNat s.weight) fun w => (⟨s.operation, w⟩ : Step)

theorem scenario_written (omitted : Part → Bool) (steps : List Step) :
    Schema.scenario (.array (steps.map fun s => .table (tableOf (keptEntries omitted s.entries)))) =
      .ok steps := by
  have hsteps : ∀ steps : List Step,
      (steps.map fun s => Value.table (tableOf (keptEntries omitted s.entries))).mapM Schema.step =
        .ok steps := by
    intro steps
    induction steps with
    | nil => rfl
    | cons s steps ih =>
      rw [List.map_cons, List.mapM_cons, step_written, ih]
      rfl
  exact hsteps steps

/-! ## The whole -/

/-- The sections of a configuration, and whether they are there. -/
def sectionsOf (settings target payload scenario : Value)
    (hasTarget hasPayload hasScenario : Bool) : List (String × Bool × Value) :=
  [("settings", true, settings), ("target", hasTarget, target), ("payload", hasPayload, payload),
    ("scenario", hasScenario, scenario)]

/-- **A configuration is read off its sections**, if those that are not there have their
defaults. -/
theorem ofTable_present {settings target payload scenario : Value}
    {hasTarget hasPayload hasScenario : Bool}
    (hsettings : Schema.settings settings = .ok c.settings)
    (htarget : Schema.target target = .ok c.target)
    (hpayload : Schema.payload payload = .ok c.payload)
    (hscenario : Schema.scenario scenario = .ok c.scenario)
    (hnoTarget : hasTarget = false → c.target = .default)
    (hnoPayload : hasPayload = false → c.payload = .default)
    (hnoScenario : hasScenario = false → c.scenario = Config.defaultScenario) :
    Config.ofTable (Keyed.ofPairs (present
      (sectionsOf settings target payload scenario hasTarget hasPayload hasScenario))) = .ok c := by
  let fields := sectionsOf settings target payload scenario hasTarget hasPayload hasScenario
  have hnames : (fields.map Prod.fst).Nodup := by simp [fields, sectionsOf]
  have hsorted : Keyed.ofPairs fields =
      [("payload", hasPayload, payload), ("scenario", hasScenario, scenario),
        ("settings", true, settings), ("target", hasTarget, target)] := by
    simp +decide only [fields, sectionsOf, Keyed.ofPairs, Keyed.insert, Keyed.update,
      List.foldl_cons, List.foldl_nil, if_true, if_false]
  have hfills : Fills Schema.setConfig (Keyed.ofPairs fields)
      ⟨none, .default, .default, Config.defaultScenario⟩
      ⟨some c.settings, c.target, c.payload, c.scenario⟩ := by
    rw [hsorted]
    refine .field
      (fun x => (⟨none, .default, x, Config.defaultScenario⟩ : Schema.ConfigDraft))
      c.payload .default (map_read hpayload _) hnoPayload ?_
    refine .field (fun x => (⟨none, .default, c.payload, x⟩ : Schema.ConfigDraft))
      c.scenario Config.defaultScenario (map_read hscenario _) hnoScenario ?_
    refine .required (fun x => (⟨some x, .default, c.payload, c.scenario⟩ : Schema.ConfigDraft))
      (map_read hsettings _) ?_
    exact .field (fun x => (⟨some c.settings, x, c.payload, c.scenario⟩ : Schema.ConfigDraft))
      c.target .default (map_read htarget _) hnoTarget (.nil _)
  rw [ofPairs_present hnames, Config.ofTable, hfills.foldlM]
  rfl

end ShardLoad
