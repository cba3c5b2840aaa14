import ShardLoad.Proofs.Json.Tokens

/-!
# JSON is read back

A pretty text shows the structure of a value by line ends and indents, which mean nothing to a
reader, and by the characters that do: so whoever reads it finds the same value, if it is not
nested deeper than texts may be.  The induction is on the value, with any text behind it that
does not go on with a number; inside an array or an object that text starts with a comma or a
line end.

* `Readable`: what can be read back, and how deep it is nested.
* `asRead`: a value with its decimals by the digits that are printed.
* `Readable.readsBack`: a value with something behind it.
* `parse?_pretty`: a whole text.
-/

namespace ShardLoad.Json

/-! ## What can be read back -/

/-- A value whose arrays and objects are nested at most so deep, and whose decimals can be
printed as numbers. -/
inductive Readable : Nat → Json → Prop
  | null {depth : Nat} : Readable depth .null
  | bool {depth : Nat} (b : Bool) : Readable depth (.bool b)
  | int {depth : Nat} (n : Int) : Readable depth (.int n)
  | decimal {depth : Nat} {d : Decimal} (h : d.Proper) : Readable depth (.decimal d)
  | string {depth : Nat} (s : String) : Readable depth (.string s)
  | array {depth : Nat} {items : List Json} (h : ∀ item ∈ items, Readable depth item) :
      Readable (depth + 1) (.array items)
  | object {depth : Nat} {members : List (String × Json)}
      (h : ∀ member ∈ members, Readable depth member.2) : Readable (depth + 1) (.object members)

/-- What is nested less deep may be nested deeper. -/
theorem Readable.mono {depth depth' : Nat} {value : Json} (h : Readable depth value)
    (hle : depth ≤ depth') : Readable depth' value := by
  induction h generalizing depth' with
  | null => exact .null
  | bool b => exact .bool b
  | int n => exact .int n
  | decimal h => exact .decimal h
  | string s => exact .string s
  | array _ ih =>
    obtain ⟨depth', rfl⟩ := Nat.exists_eq_add_of_le' (by omega : 1 ≤ depth')
    exact .array fun item hitem => ih item hitem (by omega)
  | object _ ih =>
    obtain ⟨depth', rfl⟩ := Nat.exists_eq_add_of_le' (by omega : 1 ≤ depth')
    exact .object fun member hmember => ih member hmember (by omega)

mutual
/-- A value with its decimals by the digits that are printed. -/
def asRead : Json → Json
  | .decimal d => .decimal d.asRead
  | .array items => .array (asReadItems items)
  | .object members => .object (asReadMembers members)
  | value => value

def asReadItems : List Json → List Json
  | [] => []
  | item :: items => asRead item :: asReadItems items

def asReadMembers : List (String × Json) → List (String × Json)
  | [] => []
  | (name, value) :: members => (name, asRead value) :: asReadMembers members
end

theorem asReadItems_eq_map (items : List Json) : asReadItems items = items.map asRead := by
  induction items with
  | nil => rfl
  | cons item items ih => rw [asReadItems, ih, List.map_cons]

theorem asReadMembers_eq_map (members : List (String × Json)) :
    asReadMembers members = members.map fun member => (member.1, asRead member.2) := by
  induction members with
  | nil => rfl
  | cons member members ih => rw [asReadMembers, ih, List.map_cons]

/-! ## White space -/

/-- White space is passed over. -/
theorem skipGap_append {gap : List Char} (h : ∀ c ∈ gap, isGap c = true) (rest : List Char) :
    skipGap (gap ++ rest) = skipGap rest := List.dropWhile_append_of_pos h

theorem isGap_of_mem_indent {level : Nat} {c : Char} (h : c ∈ indent level) : isGap c = true := by
  rcases List.mem_cons.mp h with rfl | h
  · rfl
  · obtain rfl := (List.mem_replicate.mp h).2
    rfl

theorem skipGap_indent_append (level : Nat) (rest : List Char) :
    skipGap (indent level ++ rest) = skipGap rest :=
  skipGap_append (fun _ hc => isGap_of_mem_indent hc) rest

theorem skipGap_cons {c : Char} (h : isGap c = false) (rest : List Char) :
    skipGap (c :: rest) = c :: rest := List.dropWhile_cons_of_neg (by simp [h])

/-- A line end ends a number. -/
theorem ends_indent_append (level : Nat) (rest : List Char) : Ends (indent level ++ rest) :=
  forall_mem_head?_cons (by decide) _

theorem ends_comma (rest : List Char) : Ends (',' :: rest) :=
  forall_mem_head?_cons (by decide) rest

theorem ends_nil : Ends [] := by
  intro c hc
  exact absurd hc (Option.not_mem_none c)

/-- White space in front of a value means nothing. -/
theorem value?_skip {gap : List Char} (h : ∀ c ∈ gap, isGap c = true) (depth : Nat)
    (rest : List Char) : value? depth (gap ++ rest) = value? depth rest := by
  cases depth <;> simp only [value?, skipGap_append h]

/-! ## Values without parts -/

/-- Whether a character may start a number. -/
def startsNumber (c : Char) : Bool := c.isDigit || c == '-'

theorem ne_of_startsNumber {c d : Char} (h : startsNumber c = true)
    (hd : startsNumber d = false) : c ≠ d := by
  rintro rfl
  rw [h] at hd
  exact Bool.noConfusion hd

theorem isGap_of_startsNumber {c : Char} (h : startsNumber c = true) : isGap c = false := by
  simp [isGap, ne_of_startsNumber h (d := ' ') rfl, ne_of_startsNumber h (d := '\n') rfl,
    ne_of_startsNumber h (d := '\r') rfl, ne_of_startsNumber h (d := '\t') rfl]

/-- What starts as a number is read as one. -/
theorem scalar?_of_startsNumber {c : Char} (h : startsNumber c = true) (rest : List Char) :
    scalar? (c :: rest) = number? (c :: rest) := by
  have hne {other : Char} {cs cs' : List Char} (ho : startsNumber other = false) :
      c :: cs = other :: cs' → False :=
    fun he => ne_of_startsNumber h ho (List.cons.inj he).1
  rw [scalar?]
  · exact fun _ => hne rfl
  · exact fun _ => hne rfl
  · exact fun _ => hne rfl
  · exact fun _ => hne rfl

/-- A number starts as numbers do. -/
theorem startsNumber_of_number? {c : Char} {cs rest : List Char} {value : Json}
    (h : number? (c :: cs) = some (value, rest)) : startsNumber c = true := by
  by_cases hminus : c = '-'
  · rw [hminus]
    rfl
  · by_cases hdigit : c.isDigit = true
    · rw [startsNumber, hdigit, Bool.true_or]
    · have hnone : whole? (c :: cs) = none := by
        simp only [whole?, digits?, List.takeWhile_cons_of_neg hdigit, List.isEmpty_nil, if_true,
          bind, Option.bind_none]
      have hsign : minus (c :: cs) = (false, c :: cs) :=
        minus_withMinus false fun he => hminus (Option.some.inj he)
      simp only [number?, hsign, hnone, bind, Option.bind_none] at h
      cases h

/-- A number is read as a value. -/
theorem value?_of_number? {cs rest : List Char} {value : Json}
    (h : number? cs = some (value, rest)) (depth : Nat) : value? depth cs = some (value, rest) := by
  cases cs with
  | nil => cases h
  | cons c cs =>
    have hc := startsNumber_of_number? h
    have hgap := isGap_of_startsNumber hc
    cases depth with
    | zero => rw [value?, skipGap_cons hgap, scalar?_of_startsNumber hc, h]
    | succ depth =>
      rw [value?, skipGap_cons hgap]
      split
      · rename_i he
        exact absurd (List.cons.inj he).1 (ne_of_startsNumber hc rfl)
      · rename_i he
        exact absurd (List.cons.inj he).1 (ne_of_startsNumber hc rfl)
      · rw [scalar?_of_startsNumber hc, h]

/-- A string is read as a value. -/
theorem value?_quote (depth : Nat) (s : String) (rest : List Char) :
    value? depth (quote s ++ rest) = some (.string s, rest) := by
  have htext : quote s ++ rest = '"' :: (s.toList.flatMap escapeChar ++ '"' :: rest) := by
    simp [quote]
  have hscalar : scalar? (quote s ++ rest) = some (.string s, rest) := by
    rw [htext, scalar?, string?_quote, Option.map_some]
  rw [htext] at hscalar ⊢
  cases depth with
  | zero => exact hscalar
  | succ depth => exact hscalar

/-! ## Arrays and objects -/

variable {depth level : Nat}

/-- What is printed for a value is read back, whatever follows. -/
def ReadsBack (depth : Nat) (value : Json) : Prop :=
  ∀ (level : Nat) {rest : List Char}, Ends rest →
    value? depth (prettyOnto level value rest) = some (value.asRead, rest)

/-- What follows a printed item ends a number. -/
theorem ends_prettyItems (level : Nat) (items : List Json) {rest : List Char} (hrest : Ends rest) :
    Ends (prettyItems level items rest) := by
  cases items with
  | nil => exact hrest
  | cons item items => exact ends_comma _

theorem ends_prettyMembers (level : Nat) (members : List (String × Json)) {rest : List Char}
    (hrest : Ends rest) : Ends (prettyMembers level members rest) := by
  cases members with
  | nil => exact hrest
  | cons member members => exact ends_comma _

/-- The items of an array are read one after the other. -/
theorem items?_pretty {item : Json} {items : List Json}
    (h : ∀ other ∈ item :: items, ReadsBack depth other) (level outer count : Nat)
    (hcount : items.length < count) (rest : List Char) :
    items? (value? depth) count (indent level ++ prettyOnto level item
        (prettyItems level items (indent outer ++ ']' :: rest))) =
      some ((item :: items).map asRead, rest) := by
  induction items generalizing item count with
  | nil =>
    obtain ⟨count, rfl⟩ := Nat.exists_eq_add_of_le' (Nat.lt_of_le_of_lt (Nat.zero_le _) hcount)
    have hitem := h item List.mem_cons_self level (ends_indent_append outer (']' :: rest))
    rw [prettyItems, items?, value?_skip (fun _ hc => isGap_of_mem_indent hc), hitem]
    simp only [bind, Option.bind_some, skipGap_indent_append, skipGap_cons (c := ']') rfl]
    rfl
  | cons next items ih =>
    obtain ⟨count, rfl⟩ := Nat.exists_eq_add_of_le' (Nat.lt_of_le_of_lt (Nat.zero_le _) hcount)
    have hitem := h item List.mem_cons_self level
      (ends_prettyItems level (next :: items) (ends_indent_append outer (']' :: rest)))
    have hnext := ih (fun other ho => h other (List.mem_cons_of_mem _ ho)) count
      (Nat.lt_of_succ_lt_succ hcount)
    rw [items?, value?_skip (fun _ hc => isGap_of_mem_indent hc), hitem]
    simp only [bind, Option.bind_some, prettyItems, List.cons_append, skipGap_cons (c := ',') rfl,
      hnext]
    rfl

/-- A name and its value are read, whatever white space there is. -/
theorem member?_pretty {value : Json} (h : ReadsBack depth value) (level : Nat) (name : String)
    {rest : List Char} (hrest : Ends rest) :
    member? (value? depth) (indent level ++ quote name ++ ':' :: ' ' ::
        prettyOnto level value rest) = some ((name, value.asRead), rest) := by
  have htext : indent level ++ quote name ++ ':' :: ' ' :: prettyOnto level value rest =
      indent level ++ '"' :: (name.toList.flatMap escapeChar ++
        '"' :: ':' :: ([' '] ++ prettyOnto level value rest)) := by simp [quote]
  have hblank : ∀ c ∈ [' '], isGap c = true := List.forall_mem_singleton.mpr rfl
  rw [htext, member?, skipGap_indent_append, skipGap_cons (c := '"') rfl]
  simp only [string?_quote, bind, Option.bind_some, skipGap_cons (c := ':') rfl,
    value?_skip hblank, h level hrest]

/-- The members of an object are read one after the other. -/
theorem members?_pretty {name : String} {value : Json} {members : List (String × Json)}
    (h : ∀ member ∈ (name, value) :: members, ReadsBack depth member.2)
    (level outer count : Nat) (hcount : members.length < count) (rest : List Char) :
    members? (value? depth) count (indent level ++ quote name ++ ':' :: ' ' ::
        prettyOnto level value (prettyMembers level members (indent outer ++ '}' :: rest))) =
      some (((name, value) :: members).map fun member => (member.1, member.2.asRead), rest) := by
  induction members generalizing name value count with
  | nil =>
    obtain ⟨count, rfl⟩ := Nat.exists_eq_add_of_le' (Nat.lt_of_le_of_lt (Nat.zero_le _) hcount)
    have hmember := member?_pretty (h (name, value) List.mem_cons_self) level name
      (ends_indent_append outer ('}' :: rest))
    rw [prettyMembers, members?, hmember]
    simp only [bind, Option.bind_some, skipGap_indent_append, skipGap_cons (c := '}') rfl]
    rfl
  | cons next members ih =>
    obtain ⟨name', value'⟩ := next
    obtain ⟨count, rfl⟩ := Nat.exists_eq_add_of_le' (Nat.lt_of_le_of_lt (Nat.zero_le _) hcount)
    have hmember := member?_pretty (h (name, value) List.mem_cons_self) level name
      (ends_prettyMembers level ((name', value') :: members)
        (ends_indent_append outer ('}' :: rest)))
    have hnext := ih (fun member hm => h member (List.mem_cons_of_mem _ hm)) count
      (Nat.lt_of_succ_lt_succ hcount)
    rw [members?, hmember]
    simp only [bind, Option.bind_some, prettyMembers, List.cons_append,
      skipGap_cons (c := ',') rfl]
    rw [List.append_assoc] at hnext ⊢
    simp only [hnext]
    rfl

/-! ## How long a text is -/

theorem length_le_prettyItems {items : List Json}
    (h : ∀ item ∈ items, ∀ (level : Nat) (rest : List Char),
      rest.length ≤ (prettyOnto level item rest).length) (level : Nat) (rest : List Char) :
    items.length + rest.length ≤ (prettyItems level items rest).length := by
  induction items with
  | nil => exact Nat.le_of_eq (Nat.zero_add _)
  | cons item items ih =>
    have hitem := h item List.mem_cons_self level (prettyItems level items rest)
    have hitems := ih fun other ho => h other (List.mem_cons_of_mem _ ho)
    simp only [prettyItems, List.length_cons, List.length_append]
    omega

theorem length_le_prettyMembers {members : List (String × Json)}
    (h : ∀ member ∈ members, ∀ (level : Nat) (rest : List Char),
      rest.length ≤ (prettyOnto level member.2 rest).length) (level : Nat) (rest : List Char) :
    members.length + rest.length ≤ (prettyMembers level members rest).length := by
  induction members with
  | nil => exact Nat.le_of_eq (Nat.zero_add _)
  | cons member members ih =>
    have hmember := h member List.mem_cons_self level (prettyMembers level members rest)
    have hmembers := ih fun other ho => h other (List.mem_cons_of_mem _ ho)
    simp only [prettyMembers, List.length_cons, List.length_append]
    omega

/-- A value adds characters and takes none away. -/
theorem length_le_prettyOnto {value : Json} (h : Readable depth value) (level : Nat)
    (rest : List Char) : rest.length ≤ (prettyOnto level value rest).length := by
  induction h generalizing level rest with
  | null | bool | int | decimal | string => simp [prettyOnto]
  | @array depth items _ ih =>
    cases items with
    | nil => simp [prettyOnto]; omega
    | cons item items =>
      have hitem := ih item List.mem_cons_self (level + 1)
        (prettyItems (level + 1) items (indent level ++ ']' :: rest))
      have hitems := length_le_prettyItems (fun other ho => ih other (List.mem_cons_of_mem _ ho))
        (level + 1) (indent level ++ ']' :: rest)
      simp only [prettyOnto, List.length_cons, List.length_append] at hitems ⊢
      omega
  | @object depth members _ ih =>
    cases members with
    | nil => simp [prettyOnto]; omega
    | cons member members =>
      have hmember := ih member List.mem_cons_self (level + 1)
        (prettyMembers (level + 1) members (indent level ++ '}' :: rest))
      have hmembers := length_le_prettyMembers
        (fun other ho => ih other (List.mem_cons_of_mem _ ho)) (level + 1)
        (indent level ++ '}' :: rest)
      simp only [prettyOnto, List.length_cons, List.length_append] at hmembers ⊢
      omega

/-! ## Values and texts -/

/-- No value starts with a closing bracket. -/
theorem skipGap_ne_of_value? {cs rest : List Char} {value : Json}
    (h : value? depth cs = some (value, rest)) (cs' : List Char) : skipGap cs ≠ ']' :: cs' := by
  intro he
  cases depth with
  | zero => rw [value?, he] at h; cases h
  | succ depth => rw [value?, he] at h; cases h

/-- An array that has items is read item by item. -/
theorem array?_of_items? {cs rest rest' : List Char} {first : Json} {items : List Json}
    (hfirst : value? depth cs = some (first, rest))
    (hitems : items? (value? depth) cs.length cs = some (items, rest')) :
    array? (value? depth) cs = some (.array items, rest') := by
  unfold array?
  split
  · rename_i he
    exact absurd he (skipGap_ne_of_value? hfirst _)
  · rw [hitems, Option.map_some]

/-- An object that has members is read member by member. -/
theorem object?_of_members? {cs cs' rest : List Char} {members : List (String × Json)}
    (hcs : skipGap cs = '"' :: cs')
    (hmembers : members? (value? depth) cs.length cs = some (members, rest)) :
    object? (value? depth) cs = some (.object members, rest) := by
  rw [object?, hcs, hmembers]
  rfl

/-- An array is read back if its items are. -/
theorem readsBack_array {items : List Json} (hitems : ∀ item ∈ items, Readable depth item)
    (h : ∀ item ∈ items, ReadsBack depth item) : ReadsBack (depth + 1) (.array items) := by
  intro level rest _
  cases items with
  | nil => rfl
  | cons item items =>
    have hlength := length_le_prettyItems (fun other ho (level : Nat) rest =>
      length_le_prettyOnto (hitems other (List.mem_cons_of_mem _ ho)) level rest) (level + 1)
      (indent level ++ ']' :: rest)
    have hfirst := length_le_prettyOnto (hitems item List.mem_cons_self) (level + 1)
      (prettyItems (level + 1) items (indent level ++ ']' :: rest))
    have hread := items?_pretty h (level + 1) level
      ((indent (level + 1) ++ prettyOnto (level + 1) item
        (prettyItems (level + 1) items (indent level ++ ']' :: rest))).length)
      (by simp only [indent, List.length_append, List.length_cons] at hlength hfirst ⊢; omega)
      rest
    have hitem : value? depth (indent (level + 1) ++ prettyOnto (level + 1) item
        (prettyItems (level + 1) items (indent level ++ ']' :: rest))) = some _ :=
      (value?_skip (fun _ hc => isGap_of_mem_indent hc) _ _).trans
        (h item List.mem_cons_self (level + 1)
          (ends_prettyItems _ items (ends_indent_append level _)))
    rw [asRead, asReadItems_eq_map]
    exact array?_of_items? hitem hread

/-- An object is read back if the values of its members are. -/
theorem readsBack_object {members : List (String × Json)}
    (hmembers : ∀ member ∈ members, Readable depth member.2)
    (h : ∀ member ∈ members, ReadsBack depth member.2) :
    ReadsBack (depth + 1) (.object members) := by
  intro level rest _
  cases members with
  | nil => rfl
  | cons member members =>
    obtain ⟨name, value⟩ := member
    have hlength := length_le_prettyMembers (fun other ho (level : Nat) rest =>
      length_le_prettyOnto (hmembers other (List.mem_cons_of_mem _ ho)) level rest) (level + 1)
      (indent level ++ '}' :: rest)
    have hfirst := length_le_prettyOnto (hmembers (name, value) List.mem_cons_self) (level + 1)
      (prettyMembers (level + 1) members (indent level ++ '}' :: rest))
    have hread := members?_pretty h (level + 1) level
      ((indent (level + 1) ++ quote name ++ ':' :: ' ' :: prettyOnto (level + 1) value
        (prettyMembers (level + 1) members (indent level ++ '}' :: rest))).length)
      (by simp only [indent, List.length_append, List.length_cons] at hlength hfirst ⊢; omega)
      rest
    have hquote : skipGap (indent (level + 1) ++ quote name ++ ':' :: ' ' ::
        prettyOnto (level + 1) value
          (prettyMembers (level + 1) members (indent level ++ '}' :: rest))) =
        quote name ++ ':' :: ' ' :: prettyOnto (level + 1) value
          (prettyMembers (level + 1) members (indent level ++ '}' :: rest)) := by
      rw [List.append_assoc, skipGap_indent_append]
      exact skipGap_cons (c := '"') rfl _
    rw [asRead, asReadMembers_eq_map]
    exact object?_of_members? hquote hread

/-- **A printed value is read back,** with any text behind it that does not go on with a
number. -/
theorem Readable.readsBack {value : Json} (h : Readable depth value) : ReadsBack depth value := by
  induction h with
  | @null depth =>
    intro level rest _
    cases depth <;> rfl
  | @bool depth b =>
    intro level rest _
    cases b <;> cases depth <;> rfl
  | int n =>
    intro level rest hrest
    exact value?_of_number? (number?_intChars n hrest) _
  | decimal hd =>
    intro level rest hrest
    exact value?_of_number? (number?_write hd hrest) _
  | string s =>
    intro level rest _
    exact value?_quote _ s rest
  | array hitems ih => exact readsBack_array hitems ih
  | object hmembers ih => exact readsBack_object hmembers ih

/-- **A pretty text is read back.** -/
theorem parse?_pretty {value : Json} (h : Readable maxDepth value) :
    parse? (pretty value) = some value.asRead := by
  have hread := h.readsBack 0 ends_nil
  simp only [parse?, pretty, String.toList_ofList, hread, bind, Option.bind_some]
  rfl

end ShardLoad.Json
