import ShardLoad.Config.FromJson
import ShardLoad.Proofs.Config.Sections
import ShardLoad.Proofs.Decimal.Shortest
import ShardLoad.Proofs.Json.Reading
import ShardLoad.Result.Report

/-!
# A run can be repeated from its report

The text of a report is JSON, whatever was counted and whatever texts a configuration has: its
numbers are the decimals of doubles or `null`, and nothing in it is nested deeper than four times.

What is read of its configuration is what was written, since that has integers only.  The object
of a section has the fields that a document would have if nothing was left out, so it is read as a
section of a document is.

* `readable_toJson`, `parse?_render`: what is in a report can be read back.
* `Config.ofJson?_toJson`: the configuration of an object.
* `Report.config_of_text`: the configuration of a report.
-/

namespace ShardLoad

open Toml (Value Plain tableOf)

/-! ## Reports are JSON -/

namespace Json

@[simp] theorem readable_object_iff {depth : Nat} {members : List (String × Json)} :
    Readable (depth + 1) (.object members) ↔ ∀ member ∈ members, Readable depth member.2 := by
  constructor
  · rintro ⟨⟩
    assumption
  · exact .object

@[simp] theorem readable_array_iff {depth : Nat} {items : List Json} :
    Readable (depth + 1) (.array items) ↔ ∀ item ∈ items, Readable depth item := by
  constructor
  · rintro ⟨⟩
    assumption
  · exact .array

@[simp] theorem readable_nat (depth n : Nat) : Readable depth (.nat n) := .int n

@[simp] theorem readable_string (depth : Nat) (s : String) : Readable depth (.string s) := .string s

@[simp] theorem readable_bool (depth : Nat) (b : Bool) : Readable depth (.bool b) := .bool b

/-- The number of a double can be printed as one. -/
theorem readable_ofFloat (depth : Nat) (x : Float) : Readable depth (.ofFloat x) := by
  unfold ofFloat
  split
  · rename_i d hd
    refine .decimal fun hzero => ?_
    unfold Decimal.ofFloat? at hd
    split at hd
    · obtain rfl := Option.some.inj hd
      exact Decimal.exponent_shortest hzero
    · exact absurd hd (Option.some_ne_none d).symm
  · exact .null

end Json

open Json (Readable)

theorem Settings.readable_toJson (s : Settings) : Readable 1 s.toJson := by
  unfold toJson
  cases s.expectedInterval <;> simp

theorem Target.readable_toJson (t : Target) : Readable 1 t.toJson := by simp [toJson]

theorem Payload.readable_toJson (p : Payload) : Readable 1 p.toJson := by simp [toJson]

theorem Step.readable_toJson (s : Step) : Readable 1 s.toJson := by simp [toJson]

theorem Config.readable_toJson (c : Config) : Readable 3 c.toJson := by
  have hsettings := c.settings.readable_toJson.mono (by decide : 1 ≤ 2)
  have htarget := c.target.readable_toJson.mono (by decide : 1 ≤ 2)
  have hpayload := c.payload.readable_toJson.mono (by decide : 1 ≤ 2)
  have hsteps : ∀ s ∈ c.scenario, Readable 1 s.toJson := fun s _ => s.readable_toJson
  simpa [toJson, hsettings, htarget, hpayload] using hsteps

namespace Report

theorem readable_countsJson (c : Counts) : Readable 1 (countsJson c) := by
  refine .object fun member hmember => ?_
  obtain ⟨kv, -, rfl⟩ := List.mem_map.mp hmember
  exact .int _

theorem readable_metricsJson (s : Snapshot) (elapsed : Duration) :
    Readable 2 (metricsJson s elapsed) := by
  simp [metricsJson, latencyJson, Json.readable_ofFloat, readable_countsJson]

theorem readable_shardJson (r : ShardRow) : Readable 2 (shardJson r) := by
  simp [shardJson, readable_countsJson]

/-- The rows by their names are those of the list, each as an object. -/
theorem shardsJson_eq (rows : List ShardRow) :
    shardsJson rows = .object ((Keyed.ofPairs (rows.map fun r => (r.name, r))).map
      fun kv => (kv.1, shardJson kv.2)) := by
  rw [shardsJson, ← Keyed.ofPairs_map, List.map_map]
  rfl

theorem readable_shardsJson (rows : List ShardRow) : Readable 3 (shardsJson rows) := by
  rw [shardsJson_eq]
  refine .object fun member hmember => ?_
  obtain ⟨kv, -, rfl⟩ := List.mem_map.mp hmember
  exact readable_shardJson kv.2

/-- **What is in a report can be read back.** -/
theorem readable_toJson (timestamp : String) (c : Config) (s : Snapshot) (elapsed : Duration) :
    Readable 4 (toJson timestamp c s elapsed) := by
  have hmetrics := (readable_metricsJson s elapsed).mono (by decide : 2 ≤ 3)
  have hcounts (counts : Counts) := (readable_countsJson counts).mono (by decide : 1 ≤ 3)
  simp [toJson, Json.readable_ofFloat, c.readable_toJson, hmetrics, hcounts, readable_shardsJson]

/-- What is read of the text of a report. -/
theorem parse?_render (timestamp : String) (c : Config) (s : Snapshot) (elapsed : Duration) :
    Json.parse? (render timestamp c s elapsed) = some (toJson timestamp c s elapsed).asRead :=
  Json.parse?_pretty ((readable_toJson timestamp c s elapsed).mono (by decide : 4 ≤ Json.maxDepth))

end Report

/-! ## The configuration of an object -/

/-- Nothing is left out of an object. -/
def nothingOmitted : Part → Bool := fun _ => false

theorem omitsDefaults_nothing (c : Config) : OmitsDefaults nothingOmitted c :=
  fun _ h => Bool.noConfusion h

theorem Settings.toValue_toJson (s : Settings) :
    s.toJson.toValue = .table (tableOf (keptEntries nothingOmitted s.entries)) := by
  obtain ⟨users, duration, pacing, timeout, interval⟩ := s
  cases interval <;> rfl

theorem Target.toValue_toJson (t : Target) :
    t.toJson.toValue = .table (tableOf (keptEntries nothingOmitted t.entries)) := rfl

theorem Payload.toValue_toJson (p : Payload) :
    p.toJson.toValue = .table (tableOf (keptEntries nothingOmitted p.entries)) := rfl

theorem Step.toValue_toJson (s : Step) :
    s.toJson.toValue = .table (tableOf (keptEntries nothingOmitted s.entries)) := rfl

theorem Json.toValues_eq_map (items : List Json) : toValues items = items.map toValue := by
  induction items with
  | nil => rfl
  | cons item items ih => rw [toValues, ih, List.map_cons]

theorem toValue_scenario (steps : List Step) :
    (Json.array (steps.map Step.toJson)).toValue =
      .array (steps.map fun s => .table (tableOf (keptEntries nothingOmitted s.entries))) := by
  rw [Json.toValue, Json.toValues_eq_map, List.map_map]
  rfl

namespace Config

/-- A field that is written is not `null`. -/
theorem withoutNull_tableOf (entries : List (String × Plain)) :
    withoutNull (.table (tableOf entries)) = .table (tableOf entries) := by
  rw [withoutNull, List.filter_eq_self.mpr]
  intro m hm
  have hvalues := Keyed.ofPairs_map (fun v : Plain => Value.scalar v.scalar) entries
  rw [tableOf, hvalues] at hm
  obtain ⟨⟨key, v⟩, -, rfl⟩ := List.mem_map.mp hm
  cases v <;> simp [Plain.scalar, Json.isNullValue]

/-- **A configuration is read off its object.** -/
theorem ofJson?_toJson (c : Config) : ofJson? c.toJson = some c := by
  have hnothing := omitsDefaults_nothing c
  let settings := Value.table (tableOf (keptEntries nothingOmitted c.settings.entries))
  let target := Value.table (tableOf (keptEntries nothingOmitted c.target.entries))
  let payload := Value.table (tableOf (keptEntries nothingOmitted c.payload.entries))
  let steps := c.scenario.map fun s => Value.table (tableOf (keptEntries nothingOmitted s.entries))
  have hmembers : Json.toMembers [("settings", c.settings.toJson), ("target", c.target.toJson),
      ("payload", c.payload.toJson), ("scenario", .array (c.scenario.map Step.toJson))] =
      [("settings", settings), ("target", target), ("payload", payload),
        ("scenario", .array steps)] := by
    simp only [Json.toMembers, Settings.toValue_toJson, Target.toValue_toJson,
      Payload.toValue_toJson, toValue_scenario]
    rfl
  have hpresent : present (sectionsOf settings target payload (.array steps) true true true) =
      [("settings", settings), ("target", target), ("payload", payload),
        ("scenario", .array steps)] := rfl
  have hsections : (Keyed.ofPairs [("settings", settings), ("target", target),
      ("payload", payload), ("scenario", .array steps)]).map
        (fun m => (m.1, if m.1 = "settings" then withoutNull m.2 else m.2)) =
      Keyed.ofPairs
        (present (sectionsOf settings target payload (.array steps) true true true)) := by
    simp +decide only [hpresent, settings, withoutNull_tableOf, Keyed.ofPairs, Keyed.insert,
      Keyed.update, List.foldl_cons, List.foldl_nil, List.map_cons, List.map_nil, if_true,
      if_false]
  have hread := ofTable_present (settings_written hnothing) (target_written hnothing)
    (payload_written hnothing) (scenario_written nothingOmitted c.scenario)
    (fun h : true = false => Bool.noConfusion h) (fun h : true = false => Bool.noConfusion h)
    (fun h : true = false => Bool.noConfusion h)
  simp only [toJson, ofJson?]
  rw [hmembers, hsections, hread]
  rfl

end Config

/-! ## The configuration of a report -/

namespace Report

theorem asRead_settings (s : Settings) : s.toJson.asRead = s.toJson := by
  obtain ⟨users, duration, pacing, timeout, interval⟩ := s
  cases interval <;> rfl

/-- Only integers, truth values and texts are written of a configuration, which are read as they
are. -/
theorem asRead_config (c : Config) : c.toJson.asRead = c.toJson := by
  have hsteps : (c.scenario.map Step.toJson).map Json.asRead = c.scenario.map Step.toJson := by
    rw [List.map_map]
    rfl
  simp only [Config.toJson, Json.asRead, Json.asReadMembers, asRead_settings,
    Json.asReadItems_eq_map, hsteps]
  rfl

/-- **The configuration of a run is read off the text of its report.** -/
theorem config_of_text (timestamp : String) (c : Config) (s : Snapshot) (elapsed : Duration) :
    ∃ report, Json.parse? (render timestamp c s elapsed) = some report ∧
      (report.field? "config").bind Config.ofJson? = some c := by
  have hconfig : (toJson timestamp c s elapsed).asRead.field? "config" = some c.toJson.asRead := rfl
  refine ⟨_, parse?_render timestamp c s elapsed, ?_⟩
  rw [hconfig, asRead_config, Option.bind_some]
  exact Config.ofJson?_toJson c

end Report
end ShardLoad
