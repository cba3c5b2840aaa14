import ShardLoad.Config.Load
import ShardLoad.Proofs.Config.Sections
import ShardLoad.Proofs.Config.Validity

/-!
# A written configuration is loaded again

Whoever writes a configuration as a document may choose the quotes of each text, and may leave out
whatever has its default: fields, whole sections, or fields of a section that is there.  What is
loaded is the configuration that was written, as long as it is one that can be run.

The tables have different names, and the steps of the mix stand behind them, so the document is
read as a table of sections; the sections that are there are read field by field.  Numbers need no
bound for this, though there are writers that refuse those past 63 bits.  That the mix is not
empty matters: an empty array of tables is not written at all, and one that is not there stands
for the default mix.

* `blocks_eq_layout`, `wellFormed_of_mem_blocks`: the tables of a configuration.
* `ofTable_blocks`: what they hold.
* `ofToml_toToml`: the document is loaded.
-/

namespace ShardLoad

open Toml (Plain Block tableOf layout sectionOf arrayOf)

/-- Fields that are left out leave names that can be keys all the more. -/
theorem WellNamed.wellFormed {entries : List Entry} (h : WellNamed (entries.map Entry.name))
    (omitted : Part → Bool) (isElement : Bool) {name : String} (hname : Toml.Bare name) :
    Block.WellFormed ⟨isElement, name, keptEntries omitted entries⟩ := by
  refine ⟨⟨hname, fun entry hentry => ?_⟩, ?_⟩
  · obtain ⟨e, he, rfl⟩ := List.mem_map.mp hentry
    exact h.bare e.name (List.mem_map_of_mem (List.mem_filter.mp he).1)
  · have hnames : (keptEntries omitted entries).map Prod.fst =
        (entries.filter (Entry.isKept omitted)).map Entry.name := by
      rw [keptEntries, List.map_map]
      rfl
    rw [hnames]
    exact h.nodup.sublist (List.filter_sublist.map Entry.name)

namespace Config

/-! ## The tables of a configuration -/

/-- The tables of a configuration but those of the mix. -/
def plainTables (omitted : Part → Bool) (c : Config) : List (String × List (String × Plain)) :=
  ("settings", keptEntries omitted c.settings.entries) ::
  ((if omitted .target then [] else [("target", keptEntries omitted c.target.entries)]) ++
  if omitted .payload then [] else [("payload", keptEntries omitted c.payload.entries)])

/-- The tables of the mix. -/
def mixTables (omitted : Part → Bool) (c : Config) : List (List (String × Plain)) :=
  if omitted .scenario then [] else c.scenario.map fun s => keptEntries omitted s.entries

/-- The steps of the mix stand behind all other tables. -/
theorem blocks_eq_layout (omitted : Part → Bool) (c : Config) :
    c.blocks omitted = layout (c.plainTables omitted) "scenario" (c.mixTables omitted) := by
  unfold blocks layout plainTables mixTables
  cases omitted .target <;> cases omitted .payload <;> cases omitted .scenario <;> simp

theorem mem_of_mem_ite {α : Type} {p : Prop} [Decidable p] {a : α} {l : List α}
    (h : a ∈ if p then [] else l) : a ∈ l := by
  split at h
  · exact absurd h List.not_mem_nil
  · exact h

/-- The tables of a configuration have keys of their own. -/
theorem wellFormed_of_mem_blocks {omitted : Part → Bool} {c : Config} {b : Block}
    (h : b ∈ c.blocks omitted) : b.WellFormed := by
  simp only [blocks, List.mem_cons, List.mem_append] at h
  rcases h with rfl | h | h | h
  · exact c.settings.wellNamed.wellFormed omitted false (by decide)
  · obtain rfl := List.mem_singleton.mp (mem_of_mem_ite h)
    exact c.target.wellNamed.wellFormed omitted false (by decide)
  · obtain rfl := List.mem_singleton.mp (mem_of_mem_ite h)
    exact c.payload.wellNamed.wellFormed omitted false (by decide)
  · obtain ⟨s, -, rfl⟩ := List.mem_map.mp (mem_of_mem_ite h)
    exact s.wellNamed.wellFormed omitted true (by decide)

/-- No two tables have the same name, and none has that of the mix. -/
theorem nodup_plainTables (omitted : Part → Bool) (c : Config) :
    ((c.plainTables omitted).map Prod.fst).Nodup ∧
      "scenario" ∉ (c.plainTables omitted).map Prod.fst := by
  unfold plainTables
  cases omitted .target <;> cases omitted .payload <;> simp

/-! ## What is loaded -/

/-- The sections of a configuration that has some step are those that were not left out. -/
theorem plainTables_append_mixTables (omitted : Part → Bool) {c : Config} (h : c.scenario ≠ []) :
    (c.plainTables omitted).map sectionOf ++ arrayOf "scenario" (c.mixTables omitted) =
      present (sectionsOf (.table (tableOf (keptEntries omitted c.settings.entries)))
        (.table (tableOf (keptEntries omitted c.target.entries)))
        (.table (tableOf (keptEntries omitted c.payload.entries)))
        (.array (c.scenario.map fun s => .table (tableOf (keptEntries omitted s.entries))))
        (!omitted .target) (!omitted .payload) (!omitted .scenario)) := by
  unfold plainTables mixTables arrayOf
  cases omitted .target <;> cases omitted .payload <;> cases omitted .scenario <;>
    simp [sectionOf, sectionsOf, present, h]

/-- **A configuration is read off its tables**, if only defaults were left out. -/
theorem ofTable_blocks {omitted : Part → Bool} {c : Config} (hsteps : c.scenario ≠ [])
    (h : OmitsDefaults omitted c) :
    ofTable (Keyed.ofPairs ((c.plainTables omitted).map sectionOf ++
      arrayOf "scenario" (c.mixTables omitted))) = .ok c := by
  rw [plainTables_append_mixTables omitted hsteps]
  exact ofTable_present (settings_written h) (target_written h) (payload_written h)
    (scenario_written omitted c.scenario) (fun hk => h.isDefault hk) (fun hk => h.isDefault hk)
    fun hk => h.isDefault hk

/-- **A configuration that can be run is loaded from its document**, whatever quotes its texts
stand in and whichever parts are left out that have their defaults. -/
theorem ofToml_toToml (style : Toml.Style) {omitted : Part → Bool} {c : Config}
    (hvalid : c.validate = .ok ()) (hdefault : ∀ part, omitted part = true → part.IsDefault c) :
    ofToml (c.toToml style omitted) = .ok c := by
  have hsteps : c.scenario ≠ [] := ((validate_eq_ok_iff c).mp hvalid).steps
  obtain ⟨hnames, hname⟩ := nodup_plainTables omitted c
  have hread : Toml.read? (c.toToml style omitted) =
      some (Keyed.ofPairs ((c.plainTables omitted).map sectionOf ++
        arrayOf "scenario" (c.mixTables omitted))) := by
    rw [toToml, blocks_eq_layout]
    refine Toml.read?_document style (fun b hb => ?_) hnames hname
    exact wellFormed_of_mem_blocks (blocks_eq_layout omitted c ▸ hb)
  have hparse : parse (c.toToml style omitted) = .ok c := by
    simp only [parse, hread, ofTable_blocks hsteps hdefault]
  have hchecked : checked c = .ok c := by simp only [checked, hvalid]
  rw [ofToml, hparse]
  exact hchecked

/-- The default configuration with a host that needs quotes: all that has its default is left
out. -/
theorem ofToml_toToml_quoted :
    ofToml (toToml .preferred (fun part => !([.target, .host].contains part))
        { Config.default with target := { Target.default with host := "\"a\\'\t" } }) =
      .ok { Config.default with target := { Target.default with host := "\"a\\'\t" } } := by
  refine ofToml_toToml .preferred (by decide +kernel) fun part hpart => ?_
  cases part with
  | target => exact absurd hpart (by decide)
  | host => exact absurd hpart (by decide)
  | _ => rfl

example : toToml .preferred (fun part => !([.target, .host].contains part))
    { Config.default with target := { Target.default with host := "\"a\\'\t" } } =
      "[settings]\nvirtual_users = 8\nduration_secs = 60\n\n[target]\nhost = '''\"a\\'\t'''\n" := by
  decide +kernel

end Config
end ShardLoad
