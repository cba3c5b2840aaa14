import ShardLoad.Proofs.Run.Ending
import ShardLoad.Proofs.Run.Gate
import ShardLoad.Command.Run

/-!
# Overridden fields of a configuration file

What is given with a command replaces what is in its file, so a field of the file that is
replaced should not matter.  It does not matter for the run: what is run is the configuration
with its fields replaced.  But it does matter for whether there is a run.  A file is checked
when it is loaded, which is before any field of it is replaced, and the run checks once more
what comes of that.  So a file that is not valid is refused even if the field at fault would
have been replaced.

* `RunRequest.Finds`: the file of a command is there, and it fits the schema.
* `RunRequest.run_answer_of_refused`, `RunRequest.run_answer_of_loaded`: what becomes of it.
* `CommandError.IsConfiguration`: the failures over a configuration.
* `RunRequest.overrides_beat_valid_file`: when there is such a failure, and what is run otherwise.
-/

namespace ShardLoad

/-! ## The configuration of a file -/

namespace Config

variable {c : Config} {path text : String} {octets : Bytes} {e : Invalid}

/-- A file of a text that describes a valid configuration. -/
theorem ofFile_of_validate (htext : String.fromUTF8? ⟨octets.toArray⟩ = some text)
    (hparse : parse text = .ok c) (hcheck : c.validate = .ok ()) :
    ofFile path (.ok octets) = .ok c := by
  simp only [ofFile, htext, ofToml, hparse, bind, Except.bind, checked, hcheck]

/-- A file of a text that describes a configuration with a fault. -/
theorem ofFile_of_validate_error (htext : String.fromUTF8? ⟨octets.toArray⟩ = some text)
    (hparse : parse text = .ok c) (hcheck : c.validate = .error e) :
    ofFile path (.ok octets) = .error (.invalid e) := by
  simp only [ofFile, htext, ofToml, hparse, bind, Except.bind, checked, hcheck]

end Config

/-- The mix of a configuration is not overridden. -/
@[simp] theorem Overrides.totalWeight_apply (o : Overrides) (c : Config) :
    (o.apply c).totalWeight = c.totalWeight := rfl

/-! ## Failures over a configuration -/

/-- A failure over a configuration: the file was refused, or its run was. -/
inductive CommandError.IsConfiguration : CommandError → Prop
  | file (path : String) (e : ConfigError) : IsConfiguration (.config path e)
  | run (e : Invalid) : IsConfiguration (.run (.invalid e))

/-- Texts that start differently are different. -/
theorem append_ne_of_head? {start rest text : String} {first : Char}
    (hstart : start.toList.head? = some first) (htext : text.toList.head? ≠ some first) :
    start ++ rest ≠ text := by
  rintro rfl
  rw [String.toList_append, List.head?_append, hstart, Option.some_or] at htext
  exact htext rfl

/-- A failure over a configuration is not worded like that of a run that does not end. -/
theorem CommandError.IsConfiguration.message_ne {e : CommandError} (h : e.IsConfiguration) :
    e.message ≠ (CommandError.run .endless).message := by
  cases h with
  | file path e =>
    show "Failed to load config '" ++ path ++ "': " ++ e.message ≠ _
    have hstart : "Failed to load config '".toList.head? = some 'F' := rfl
    rw [String.append_assoc, String.append_assoc]
    exact append_ne_of_head? hstart (by decide +kernel)
  | run e =>
    show "Load test failed: " ++ ("Config validation error: " ++ e.message) ≠
      "Load test failed: " ++ "the run does not end"
    have hstart : "Config validation error: ".toList.head? = some 'C' := rfl
    rw [Ne, String.append_right_inj]
    exact append_ne_of_head? hstart (by decide +kernel)

/-- A failure over a configuration breaks nothing off. -/
theorem CommandError.IsConfiguration.code_eq {e : CommandError} (h : e.IsConfiguration) :
    e.code = 1 := by
  cases h with
  | file path e => rfl
  | run e => rfl

/-- Failures that leave the same behind are worded alike. -/
theorem Reply.message_eq_of_failed {output notes : List String} {log : List Event}
    {e e' : CommandError} (h : failed output notes log e = failed output notes log e') :
    e.message = e'.message := by
  have hnotes : notes ++ ["Error: " ++ e.message] = notes ++ ["Error: " ++ e'.message] :=
    congrArg Reply.notes h
  have hlines := List.append_cancel_left hnotes
  rw [List.singleton_inj, String.append_right_inj] at hlines
  exact hlines

namespace RunRequest

variable {σ : Type} {r : RunRequest} {h : Host (StateM σ)} {s : σ} {path : String} {c : Config}

/-- The configuration of a run is found in a file, whose text fits the schema. -/
structure Finds (r : RunRequest) (h : Host (StateM σ)) (s : σ) (path : String) (c : Config) :
    Prop where
  found : (h.findConfig r.config).run s = (.ok (some path), s)
  parsed : ∃ octets text, (h.read path).run s = (.ok octets, s) ∧
    String.fromUTF8? ⟨octets.toArray⟩ = some text ∧ Config.parse text = .ok c

/-- A file that is found is loaded, and then its run is tried. -/
theorem run_answer_of_found {content : Except FileFault Bytes}
    (hfound : (h.findConfig r.config).run s = (.ok (some path), s))
    (hread : (h.read path).run s = (content, s)) :
    (r.answer h).run s =
      match r.load (some (path, content)) with
      | .error e => (.failed [] [origin (some path)] [] e, s)
      | .ok c =>
        match Engine.run c r.options (h.surroundings c) with
        | .error e => (.failed [] [origin (some path)] [] (.run e), s)
        | .ok f => (r.conclude h c [origin (some path)] f).run s := by
  have hcontent : (Option.mapM h.content (some path)).run s = (some (path, content), s) := by
    simp only [Option.mapM_some, StateT.run_map, Host.content, StateT.run_bind, hread]
    rfl
  unfold answer
  rw [StateT.run_bind, hfound]
  show StateT.run (do
    let file ← Option.mapM h.content (some path)
    _) s = _
  rw [StateT.run_bind, hcontent]
  show StateT.run (match r.load (some (path, content)) with
    | .error e => _
    | .ok c => _) s = _
  cases r.load (some (path, content)) with
  | error e => rfl
  | ok c =>
    dsimp only
    cases Engine.run c r.options (h.surroundings c) with
    | error e => rfl
    | ok f => rfl

/-- A run that ends says how it went. -/
theorem output_conclude_ne_nil (r : RunRequest) (h : Host (StateM σ)) (c : Config)
    (notes : List String) (f : Finished) (s : σ) :
    ((r.conclude h c notes f).run s).1.output ≠ [] := by
  unfold conclude
  dsimp only
  cases r.failOnError && f.result.snapshot.hasFailures with
  | false =>
    split
    · exact List.cons_ne_nil _ _
    · exact List.cons_ne_nil _ _
  | true =>
    split
    · exact List.cons_ne_nil _ _
    · exact List.cons_ne_nil _ _

/-- A file with a fault is refused, whatever replaces the field at fault. -/
theorem run_answer_of_refused {e : Invalid} (hfinds : r.Finds h s path c)
    (hcheck : c.validate = .error e) :
    (r.answer h).run s = (.failed [] [origin (some path)] [] (.config path (.invalid e)), s) := by
  obtain ⟨hfound, octets, text, hread, htext, hparse⟩ := hfinds
  have hload : r.load (some (path, .ok octets)) = .error (.config path (.invalid e)) := by
    simp only [load, Config.ofFile_of_validate_error htext hparse hcheck]
  rw [run_answer_of_found hfound hread, hload]

/-- A file without a fault is run with its fields replaced. -/
theorem run_answer_of_loaded (hfinds : r.Finds h s path c) (hcheck : c.validate = .ok ()) :
    (r.answer h).run s =
      match Engine.run (r.overrides.apply c) r.options
          (h.surroundings (r.overrides.apply c)) with
      | .error e => (.failed [] [origin (some path)] [] (.run e), s)
      | .ok f => (r.conclude h (r.overrides.apply c) [origin (some path)] f).run s := by
  obtain ⟨hfound, octets, text, hread, htext, hparse⟩ := hfinds
  have hload : r.load (some (path, .ok octets)) = .ok (r.overrides.apply c) := by
    simp only [load, Config.ofFile_of_validate htext hparse hcheck]
  rw [run_answer_of_found hfound hread, hload]

/-- A run that is not refused does not fail over its configuration. -/
theorem run_answer_ne_of_not_refused {e : CommandError} (hfinds : r.Finds h s path c)
    (hcheck : c.validate = .ok ()) (he : e.IsConfiguration)
    (hrun : ∀ e, Engine.run (r.overrides.apply c) r.options
      (h.surroundings (r.overrides.apply c)) ≠ .error (.invalid e)) :
    (r.answer h).run s ≠ (.failed [] [origin (some path)] [] e, s) := by
  rw [run_answer_of_loaded hfinds hcheck]
  cases hresult : Engine.run (r.overrides.apply c) r.options
      (h.surroundings (r.overrides.apply c)) with
  | ok f =>
    intro heq
    exact output_conclude_ne_nil r h _ _ f s (congrArg (fun p => p.1.output) heq)
  | error cause =>
    intro heq
    have hreply : Reply.failed [] [origin (some path)] [] (.run cause) =
        .failed [] [origin (some path)] [] e := congrArg Prod.fst heq
    -- a run that breaks off has a code of its own, one that does not end only its wording
    cases cause with
    | invalid fault => exact hrun fault hresult
    | beyondClock =>
      have hcode : 101 = e.code := congrArg Reply.code hreply
      rw [he.code_eq] at hcode
      exact absurd hcode (by decide)
    | endless => exact he.message_ne (Reply.message_eq_of_failed hreply).symm

end RunRequest

/-! ## In a tree of files -/

/-- A path that a file is read at leads to something. -/
theorem FileTree.present_of_read {tree : FileTree} {directory : Place} {path : String}
    {octets : Bytes} (h : tree.read directory path = .ok octets) :
    tree.present directory path = true := by
  unfold present
  cases hplace : tree.locate directory path with
  | error e => simp [read, hplace, bind, Except.bind] at h
  | ok place =>
    simp only [read, hplace, bind, Except.bind] at h
    cases hnode : tree.find? place with
    | none => simp [hnode] at h
    | some node => simp [hnode]

namespace RunRequest

variable {σ : Type} {r : RunRequest} {h : Host (StateM σ)} {s : σ} {tree : FileTree}
  {directory : Place} {environment : String → Option String} {time : Moment}
  {surroundings : Config → Surroundings} {path text : String} {octets : Bytes} {c : Config}

/-- A file that is asked for is found if it can be read. -/
theorem finds_host (hasked : r.config = some path) (hread : tree.read directory path = .ok octets)
    (htext : String.fromUTF8? ⟨octets.toArray⟩ = some text) (hparse : Config.parse text = .ok c) :
    r.Finds (FileTree.host directory environment time surroundings) tree path c := by
  constructor
  · rw [hasked]
    show (if tree.present directory path then Except.ok (some path)
      else Except.error (CommandError.configMissing path), tree) = _
    rw [if_pos (FileTree.present_of_read hread)]
  · exact ⟨octets, text, congrArg (·, tree) hread, htext, hparse⟩

/-- The request of a run with five users, whatever its file says. -/
def fiveUsers : RunRequest :=
  { plain with
    config := some "/loadtest.toml"
    overrides := { Overrides.none with virtualUsers := some 5 } }

/-- A host whose calls go over a scripted service. -/
def scriptedHost : Host (StateM FileTree) :=
  FileTree.host [] (fun _ => none) ⟨⟨2000, 1, 1⟩, 0, 0, 0⟩
    fun _ => ⟨.scripted ⟨.answer, .ofMillis 20⟩, 0, fun _ => .seeded 0, 0⟩

/-- A tree with nothing but a configuration in it. -/
def treeOf (text : String) : FileTree := ⟨[(["loadtest.toml"], .file (Bytes.utf8 text))]⟩

/-- The file of a run with five users is found. -/
theorem finds_fiveUsers (htext : (Bytes.utf8 text).toText? = some text)
    (hparse : (Config.parse text).toOption = some c) :
    fiveUsers.Finds scriptedHost (treeOf text) "/loadtest.toml" c := by
  have hread : (treeOf text).read [] "/loadtest.toml" = .ok (Bytes.utf8 text) := rfl
  refine finds_host rfl hread htext ?_
  cases hresult : Config.parse text with
  | error e =>
    rw [hresult] at hparse
    cases hparse
  | ok c' =>
    rw [hresult] at hparse
    cases hparse
    rfl

/-! ## What is run -/

/-- **Overridden fields.**  A run whose configuration is in a file fails over it exactly when the
file is not valid as it stands, or not with its fields replaced.  If the file is valid as it
stands, then what is run is that configuration with its fields replaced. -/
theorem overrides_beat_valid_file (hfinds : r.Finds h s path c) (hweight : c.totalWeight < 2 ^ 32) :
    ((∃ e, e.IsConfiguration ∧
        (r.answer h).run s = (.failed [] [origin (some path)] [] e, s)) ↔
      ¬(c.validate = .ok () ∧ (r.overrides.apply c).validate = .ok ())) ∧
    (c.validate = .ok () → (r.answer h).run s =
      match Engine.run (r.overrides.apply c) r.options
          (h.surroundings (r.overrides.apply c)) with
      | .error e => (.failed [] [origin (some path)] [] (.run e), s)
      | .ok f => (r.conclude h (r.overrides.apply c) [origin (some path)] f).run s) := by
  refine ⟨⟨?_, ?_⟩, run_answer_of_loaded hfinds⟩
  · rintro ⟨e, he, hanswer⟩ ⟨hfile, hreplaced⟩
    refine run_answer_ne_of_not_refused hfinds hfile he ?_ hanswer
    intro fault hrefused
    rw [Engine.run_eq_invalid_iff, Engine.plan_eq_error_iff, hreplaced] at hrefused
    obtain ⟨⟨⟩⟩ | ⟨-, hle, -⟩ := hrefused
    rw [Overrides.totalWeight_apply] at hle
    exact absurd hweight (Nat.not_lt.mpr hle)
  · intro hinvalid
    cases hfile : c.validate with
    | error fault => exact ⟨_, .file path (.invalid fault), run_answer_of_refused hfinds hfile⟩
    | ok =>
      cases hreplaced : (r.overrides.apply c).validate with
      | ok => exact absurd ⟨hfile, hreplaced⟩ hinvalid
      | error fault =>
        have hrefused : Engine.run (r.overrides.apply c) r.options
            (h.surroundings (r.overrides.apply c)) = .error (.invalid fault) :=
          Engine.run_eq_invalid_iff.mpr (Engine.plan_of_validate hreplaced)
        refine ⟨_, .run fault, ?_⟩
        rw [run_answer_of_loaded hfinds hfile, hrefused]

/-- A file for one user is run with five. -/
theorem overrides_beat_valid_file_five_users :
    ∃ f, (fiveUsers.answer scriptedHost).run
        (treeOf "[settings]\nvirtual_users = 1\nduration_secs = 1\n") =
      (fiveUsers.conclude scriptedHost { Config.default with settings := .minimal 5 1 }
        ["Loading config from: /loadtest.toml"] f).run
          (treeOf "[settings]\nvirtual_users = 1\nduration_secs = 1\n") := by
  have hfinds : fiveUsers.Finds scriptedHost
      (treeOf "[settings]\nvirtual_users = 1\nduration_secs = 1\n") "/loadtest.toml"
        { Config.default with settings := .minimal 1 1 } :=
    finds_fiveUsers (by decide +kernel) (by decide +kernel)
  have hreplaced : fiveUsers.overrides.apply { Config.default with settings := .minimal 1 1 } =
      { Config.default with settings := .minimal 5 1 } := rfl
  have hanswer := (overrides_beat_valid_file hfinds (by decide)).2 (by decide +kernel)
  obtain ⟨t, s₀, s, -, -, hrun⟩ := Engine.exists_run_of_plan
    (c := { Config.default with settings := .minimal 5 1 }) (by decide +kernel) (by decide)
    fiveUsers.options (scriptedHost.surroundings { Config.default with settings := .minimal 5 1 })
    (by decide)
  rw [hreplaced, hrun] at hanswer
  exact ⟨_, hanswer⟩

/-- A file for no users is refused, though the run was to have five, and would be valid. -/
theorem file_refused_before_overriding :
    (fiveUsers.overrides.apply { Config.default with settings := .minimal 0 1 }).validate = .ok () ∧
    (fiveUsers.answer scriptedHost).run
        (treeOf "[settings]\nvirtual_users = 0\nduration_secs = 1\n") =
      (.failed [] ["Loading config from: /loadtest.toml"] []
          (.config "/loadtest.toml" (.invalid .noUsers)),
        treeOf "[settings]\nvirtual_users = 0\nduration_secs = 1\n") := by
  have hfinds : fiveUsers.Finds scriptedHost
      (treeOf "[settings]\nvirtual_users = 0\nduration_secs = 1\n") "/loadtest.toml"
        { Config.default with settings := .minimal 0 1 } :=
    finds_fiveUsers (by decide +kernel) (by decide +kernel)
  refine ⟨by decide +kernel, ?_⟩
  exact run_answer_of_refused hfinds (by decide +kernel)

end RunRequest
end ShardLoad
