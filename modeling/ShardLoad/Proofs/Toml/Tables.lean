import ShardLoad.Proofs.Keyed
import ShardLoad.Proofs.Toml.Statements

/-!
# The tables of a document are read back

A header opens an empty table, and each line below it puts one more value there.  So a table is
built from its lines as a keyed list is built from pairs, and the document likewise from its
tables.  A header of an array opens one more table at the end of the array, and the lines below it
go into that one.

A written document has tables with different names, and maybe one array of tables behind them.
What is read of it has the values that were written, under the same names.

* `foldlM_entries`: the lines below a header.
* `foldlM_table`, `foldlM_array`: a table, and an array of tables.
* `read?_document`: a document.
-/

namespace ShardLoad.Toml

open Keyed (Ordered insert find?)

/-! ## The lines below a header -/

/-- What a statement makes of the latest header and the document's table. -/
abbrev advance? (state : List String × Keyed Node) (s : Statement) :
    Option (List String × Keyed Node) := s.apply? state.1 state.2

/-- The table with values put in, as it grows. -/
def grown (entries : List (String × Plain)) (members : Keyed Node) : Keyed Node :=
  entries.foldl (fun members e => insert e.1 (.scalar e.2.scalar) members) members

/-- The table that a header leads to is the one that it opened: a table of the document, or the
last one of an array. -/
inductive Latest : (Keyed Node → Node) → Prop where
  | table : Latest (.table .declared)
  | array (before : List (Keyed Node)) : Latest fun members => .tables (before ++ [members])

/-- A line puts its value into the table of the latest header. -/
theorem advance?_entry {put : Keyed Node → Node} (hput : Latest put) {name : String}
    {root members : Keyed Node} (hfound : root.find? name = some (put members))
    {entry : String × Plain} (hnew : members.find? entry.1 = none) :
    advance? ([name], root) (entryStatement entry) =
      some ([name], root.insert name (put (members.insert entry.1 (.scalar entry.2.scalar)))) := by
  have hassign : assign? [entry.1] (.scalar entry.2.scalar) .declared members =
      some (members.insert entry.1 (.scalar entry.2.scalar)) := by
    have hlast : splitKey [entry.1] = ([], entry.1) := rfl
    simp only [assign?, hlast, descend?, hnew]
    rfl
  simp only [advance?, entryStatement, Statement.apply?, assignBelow?]
  cases hput with
  | table => simp [descend?, hfound, hassign]
  | array before => simp [descend?, hfound, hassign]

/-- **The lines below a header put their values into its table.** -/
theorem foldlM_entries {put : Keyed Node → Node} (hput : Latest put) (name : String)
    {root members : Keyed Node} (hroot : Ordered root) {entries : List (String × Plain)}
    (hkeys : (entries.map Prod.fst).Nodup) (hnew : ∀ e ∈ entries, members.find? e.1 = none) :
    (entries.map entryStatement).foldlM advance? ([name], root.insert name (put members)) =
      some ([name], root.insert name (put (grown entries members))) := by
  induction entries generalizing members with
  | nil => rfl
  | cons entry entries ih =>
    rw [List.map_cons, List.nodup_cons] at hkeys
    rw [List.forall_mem_cons] at hnew
    rw [List.map_cons, List.foldlM_cons,
      advance?_entry hput (Keyed.find?_insert_self name _ hroot) hnew.1, Keyed.insert_insert_self]
    refine ih hkeys.2 fun e he => ?_
    rw [Keyed.find?_insert_of_ne, hnew.2 e he]
    exact fun hsame => hkeys.1 (hsame ▸ List.mem_map_of_mem he)

/-! ## Tables -/

/-- What a table of a document holds. -/
def tableOf (entries : List (String × Plain)) : Keyed Value :=
  Keyed.ofPairs (entries.map fun e => (e.1, .scalar e.2.scalar))

theorem memberValues_eq_map (members : Keyed Node) :
    Node.memberValues members = members.map fun kv => (kv.1, kv.2.value) := by
  induction members with
  | nil => rfl
  | cons kv members ih =>
    obtain ⟨k, n⟩ := kv
    rw [Node.memberValues, ih]
    rfl

theorem tableValues_eq_map (elements : List (Keyed Node)) :
    Node.tableValues elements = elements.map fun m => .table (Node.memberValues m) := by
  induction elements with
  | nil => rfl
  | cons m elements ih =>
    rw [Node.tableValues, ih]
    rfl

/-- A table holds the values that were put in. -/
theorem memberValues_grown (entries : List (String × Plain)) :
    Node.memberValues (grown entries []) = tableOf entries := by
  have h := Keyed.ofPairs_map Node.value
    (entries.map fun e => (e.1, Node.scalar e.2.scalar))
  rw [List.map_map] at h
  rw [memberValues_eq_map, tableOf, grown]
  refine Eq.trans ?_ h.symm
  rw [Keyed.ofPairs, List.foldl_map]

/-- A table all of whose names are bare, with no key twice. -/
structure Block.WellFormed (b : Block) : Prop where
  bare : b.IsBare
  nodup : (b.entries.map Prod.fst).Nodup

/-- **A table is read that the document does not have yet.** -/
theorem foldlM_table {name : String} {entries : List (String × Plain)}
    (hkeys : (entries.map Prod.fst).Nodup) (here : List String) {root : Keyed Node}
    (hroot : Ordered root) (hnew : root.find? name = none) :
    (Block.statements ⟨false, name, entries⟩).foldlM advance? (here, root) =
      some ([name], root.insert name (.table .declared (grown entries []))) := by
  have hopen : advance? (here, root) (.header [name]) =
      some ([name], root.insert name (.table .declared [])) := by
    have hlast : splitKey [name] = ([], name) := rfl
    simp only [advance?, Statement.apply?, declare?, hlast, descend?, hnew]
    rfl
  rw [Block.statements, List.foldlM_cons, Block.opens, if_neg Bool.false_ne_true, hopen]
  exact foldlM_entries Latest.table name hroot hkeys fun _ _ => rfl

/-- The header of an array opens its next table. -/
theorem advance?_element (name : String) (here : List String) {root : Keyed Node}
    {before : List (Keyed Node)} (hfound : root.find? name = some (.tables before)) :
    advance? (here, root) (.element [name]) =
      some ([name], root.insert name (.tables (before ++ [[]]))) := by
  have hlast : splitKey [name] = ([], name) := rfl
  simp only [advance?, Statement.apply?, append?, hlast, descend?, hfound]
  rfl

/-- The first header of an array opens its first table. -/
theorem advance?_element_first (name : String) (here : List String) {root : Keyed Node}
    (hnew : root.find? name = none) :
    advance? (here, root) (.element [name]) = some ([name], root.insert name (.tables [[]])) := by
  have hlast : splitKey [name] = ([], name) := rfl
  simp only [advance?, Statement.apply?, append?, hlast, descend?, hnew]
  rfl

/-- What the lines of an array of tables say. -/
def arrayStatements (name : String) (elements : List (List (String × Plain))) : List Statement :=
  elements.flatMap fun entries => Block.statements ⟨true, name, entries⟩

/-- An array of tables grows by those that are opened. -/
theorem foldlM_elements (name : String) {root : Keyed Node} (hroot : Ordered root)
    {elements : List (List (String × Plain))}
    (hkeys : ∀ entries ∈ elements, (entries.map Prod.fst).Nodup) (before : List (Keyed Node)) :
    (arrayStatements name elements).foldlM advance? ([name], root.insert name (.tables before)) =
      some ([name], root.insert name
        (.tables (before ++ elements.map fun entries => grown entries []))) := by
  induction elements generalizing before with
  | nil =>
    rw [List.map_nil, List.append_nil]
    rfl
  | cons entries elements ih =>
    rw [List.forall_mem_cons] at hkeys
    have hnew : ∀ e ∈ entries, find? e.1 ([] : Keyed Node) = none := fun _ _ => rfl
    have hentries := foldlM_entries (Latest.array before) name hroot hkeys.1 hnew
    have hrest := ih hkeys.2 (before ++ [grown entries []])
    rw [List.append_assoc] at hrest
    rw [arrayStatements, List.flatMap_cons, List.foldlM_append, Block.statements,
      List.foldlM_cons, Block.opens, if_pos rfl,
      advance?_element name [name] (Keyed.find?_insert_self name _ hroot),
      Keyed.insert_insert_self]
    simp only [bind, Option.bind_some, hentries]
    exact hrest

/-- **An array of tables is read that the document does not have yet.** -/
theorem foldlM_array {name : String} {elements : List (List (String × Plain))}
    (hne : elements ≠ []) (hkeys : ∀ entries ∈ elements, (entries.map Prod.fst).Nodup)
    (here : List String) {root : Keyed Node} (hroot : Ordered root)
    (hnew : root.find? name = none) :
    (arrayStatements name elements).foldlM advance? (here, root) =
      some ([name], root.insert name (.tables (elements.map fun entries => grown entries []))) := by
  -- the first header does to this document what it does to one with an empty array
  have hgrows := foldlM_elements name hroot hkeys []
  cases elements with
  | nil => exact absurd rfl hne
  | cons entries elements =>
    rw [arrayStatements, List.flatMap_cons, List.foldlM_append, Block.statements,
      List.foldlM_cons, Block.opens, if_pos rfl] at hgrows ⊢
    rw [advance?_element name [name] (Keyed.find?_insert_self name _ hroot),
      Keyed.insert_insert_self] at hgrows
    rw [advance?_element_first name here hnew]
    exact hgrows

/-! ## Documents -/

/-- A table as a value with its name. -/
def sectionOf (table : String × List (String × Plain)) : String × Value :=
  (table.1, .table (tableOf table.2))

/-- An array of tables as a value with its name; an empty one is not written. -/
def arrayOf (name : String) (elements : List (List (String × Plain))) : List (String × Value) :=
  if elements = [] then []
  else [(name, .array (elements.map fun entries => .table (tableOf entries)))]

/-- The document's table with tables put in. -/
def withTables (tables : List (String × List (String × Plain))) (root : Keyed Node) : Keyed Node :=
  tables.foldl (fun root t => root.insert t.1 (.table .declared (grown t.2 []))) root

theorem withTables_cons (t : String × List (String × Plain))
    (tables : List (String × List (String × Plain))) (root : Keyed Node) :
    withTables (t :: tables) root =
      withTables tables (root.insert t.1 (.table .declared (grown t.2 []))) := rfl

/-- What the lines of tables say. -/
def tablesStatements (tables : List (String × List (String × Plain))) : List Statement :=
  tables.flatMap fun t => Block.statements ⟨false, t.1, t.2⟩

/-- Tables with different names are read one after the other. -/
theorem foldlM_tables {tables : List (String × List (String × Plain))}
    (hnames : (tables.map Prod.fst).Nodup)
    (hkeys : ∀ t ∈ tables, (t.2.map Prod.fst).Nodup) (here : List String) {root : Keyed Node}
    (hroot : Ordered root) (hnew : ∀ t ∈ tables, root.find? t.1 = none) :
    ∃ here', (tablesStatements tables).foldlM advance? (here, root) =
      some (here', withTables tables root) := by
  induction tables generalizing here root with
  | nil => exact ⟨here, rfl⟩
  | cons t tables ih =>
    obtain ⟨name, entries⟩ := t
    rw [List.map_cons, List.nodup_cons] at hnames
    rw [List.forall_mem_cons] at hkeys hnew
    have htable := foldlM_table hkeys.1 here hroot hnew.1
    have hnew' : ∀ t ∈ tables,
        (root.insert name (.table .declared (grown entries []))).find? t.1 = none := by
      intro t ht
      rw [Keyed.find?_insert_of_ne, hnew.2 t ht]
      exact fun he => hnames.1 (List.mem_map.mpr ⟨t, ht, he⟩)
    obtain ⟨here', hrest⟩ :=
      ih hnames.2 hkeys.2 [name] (Keyed.ordered_insert name _ hroot) hnew'
    refine ⟨here', ?_⟩
    rw [tablesStatements, List.flatMap_cons, List.foldlM_append, htable, withTables_cons]
    exact hrest

theorem ordered_withTables (tables : List (String × List (String × Plain))) {root : Keyed Node}
    (hroot : Ordered root) : Ordered (withTables tables root) := by
  induction tables generalizing root with
  | nil => exact hroot
  | cons t tables ih => exact ih (Keyed.ordered_insert t.1 _ hroot)

/-- No other name is found among tables. -/
theorem find?_withTables {tables : List (String × List (String × Plain))} {name : String}
    (hname : name ∉ tables.map Prod.fst) (root : Keyed Node) :
    (withTables tables root).find? name = root.find? name := by
  induction tables generalizing root with
  | nil => rfl
  | cons t tables ih =>
    rw [List.map_cons, List.mem_cons, not_or] at hname
    rw [withTables_cons, ih hname.2, Keyed.find?_insert_of_ne hname.1]

theorem memberValues_insert (key : String) (n : Node) (members : Keyed Node) :
    Node.memberValues (insert key n members) = insert key n.value (Node.memberValues members) := by
  rw [memberValues_eq_map, memberValues_eq_map, Keyed.map_insert]

/-- Tables are put in with what they hold. -/
theorem memberValues_withTables (tables : List (String × List (String × Plain)))
    (root : Keyed Node) :
    Node.memberValues (withTables tables root) =
      (tables.map sectionOf).foldl (fun l kv => insert kv.1 kv.2 l) (Node.memberValues root) := by
  induction tables generalizing root with
  | nil => rfl
  | cons t tables ih =>
    have hvalue : (Node.table .declared (grown t.2 [])).value = (sectionOf t).2 := by
      rw [sectionOf, ← memberValues_grown]
      rfl
    rw [withTables_cons, ih, memberValues_insert, hvalue]
    rfl

/-- The tables of a document: some with different names, and maybe an array behind them. -/
def layout (tables : List (String × List (String × Plain))) (name : String)
    (elements : List (List (String × Plain))) : List Block :=
  tables.map (fun t => ⟨false, t.1, t.2⟩) ++ elements.map fun entries => ⟨true, name, entries⟩

/-- **A written document is read back**: what it describes has the values that were written, under
their names. -/
theorem read?_document (style : Style) {tables : List (String × List (String × Plain))}
    {name : String} {elements : List (List (String × Plain))}
    (hwell : ∀ b ∈ layout tables name elements, b.WellFormed)
    (hnames : (tables.map Prod.fst).Nodup) (hname : name ∉ tables.map Prod.fst) :
    read? (document style (layout tables name elements)) =
      some (Keyed.ofPairs (tables.map sectionOf ++ arrayOf name elements)) := by
  have hkeys : ∀ t ∈ tables, (t.2.map Prod.fst).Nodup := fun t ht =>
    (hwell ⟨false, t.1, t.2⟩ (List.mem_append_left _ (List.mem_map_of_mem ht))).nodup
  have hkeys' : ∀ entries ∈ elements, (entries.map Prod.fst).Nodup := fun entries he =>
    (hwell ⟨true, name, entries⟩ (List.mem_append_right _ (List.mem_map_of_mem he))).nodup
  have hsays : (layout tables name elements).flatMap Block.statements =
      tablesStatements tables ++ arrayStatements name elements := by
    rw [layout, List.flatMap_append, List.flatMap_map, List.flatMap_map]
    rfl
  have hempty : Ordered ([] : Keyed Node) := List.Pairwise.nil
  obtain ⟨here, htables⟩ := foldlM_tables hnames hkeys [] hempty fun _ _ => rfl
  have hnew : (withTables tables []).find? name = none := find?_withTables hname []
  have hvalues := memberValues_withTables tables []
  rw [read?, statements?_document style fun b hb => (hwell b hb).bare, hsays]
  simp only [bind, Option.bind_some]
  rw [List.foldlM_append, htables]
  by_cases hne : elements = []
  · subst hne
    rw [arrayOf, if_pos rfl, List.append_nil]
    exact congrArg some hvalues
  · have harray := foldlM_array hne hkeys' here (ordered_withTables tables List.Pairwise.nil) hnew
    have hvalue : (Node.tables (elements.map fun entries => grown entries [])).value =
        .array (elements.map fun entries => .table (tableOf entries)) := by
      have hitems := tableValues_eq_map (elements.map fun entries => grown entries [])
      rw [List.map_map] at hitems
      simp only [Function.comp_def, memberValues_grown] at hitems
      exact congrArg Value.array hitems
    simp only [bind, Option.bind_some, harray]
    rw [memberValues_insert, hvalues, hvalue, arrayOf, if_neg hne, Keyed.ofPairs,
      List.foldl_append]
    rfl

end ShardLoad.Toml
