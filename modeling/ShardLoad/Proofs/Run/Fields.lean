import ShardLoad.Proofs.Entropy.Fields
import ShardLoad.Proofs.Entropy.Weighted
import ShardLoad.Proofs.Run.Requests

/-!
# Keys and values are made of words of their own

What a call carries is made up when it is made: a key, and for an update a value, each read from
the next words of the user's generator.  Calls that are made up one after the other read on
where the one before left off, and what a user draws between two calls, a step and perhaps a
shard, only takes it further on.  So no two fields of all that a user calls share a word.

As each word is free, keys and values of the configured lengths are made by equally many words,
whatever they are, and so are those of several calls at once.

* `Builder.fieldLengths`, `Builder.fields_build`: the fields of a call.
* `Builder.buildAll`, `Builder.fields_buildAll`: calls one after the other.
* `Builder.build_update`, `Builder.build_delete`: the words of a transaction.
* `Builder.ncard_buildAll`: how many words make the fields of calls.
* `Builder.Draws`, `Builder.draws`: what a builder makes of words for a payload.
* `Agenda.exists_positions`: where the calls of a user begin to read.
* `Engine.fields_of_own_words`: all of it, for every payload and every run.
-/

namespace ShardLoad

open Entropy

/-- The octets that are made up for a call: its key, and its value if it has one. -/
def Call.fields : Call → List Bytes
  | transaction r => r.transaction.elim [] fun t => t.key :: t.value.toList
  | rootRead => []

namespace Builder

variable {σ : Type} [WordSource σ]

/-- How many octets are made up for a call of an operation: those of its key, and those of its
value if it has one. -/
def fieldLengths (b : Builder) : Operation → List Nat
  | .transaction =>
    match b.kind with
    | .update => [b.keyLength, b.valueLength]
    | .delete => [b.keyLength]
  | .rootRead => []

/-- How many words are taken to make up a call of an operation. -/
def wordsOf (b : Builder) (operation : Operation) : Nat := wordsForAll (b.fieldLengths operation)

/-- The fields of a call are read in a row, and nothing else is. -/
theorem fields_build (b : Builder) (operation : Operation) (s : σ) :
    ((b.build operation s).1.fields, (b.build operation s).2) =
      Entropy.fields (b.fieldLengths operation) s := by
  cases operation with
  | rootRead => rfl
  | transaction =>
    unfold build buildTransaction fieldLengths
    cases b.kind <;> rfl

/-- Calls that are made up one after the other. -/
def buildAll (b : Builder) : List Operation → σ → List Call × σ
  | [], s => ([], s)
  | operation :: operations, s =>
    let (call, s) := b.build operation s
    let (calls, s) := b.buildAll operations s
    (call :: calls, s)

/-- The fields of calls are read in a row, and nothing else is. -/
theorem fields_buildAll (b : Builder) (operations : List Operation) (s : σ) :
    ((b.buildAll operations s).1.flatMap Call.fields, (b.buildAll operations s).2) =
      Entropy.fields (operations.flatMap b.fieldLengths) s := by
  induction operations generalizing s with
  | nil => rfl
  | cons operation operations ih =>
    rw [List.flatMap_cons, Entropy.fields_append, ← b.fields_build, ← ih]
    rfl

/-- A builder makes fields of the configured lengths. -/
theorem parts_of_ofPayload? {p : Payload} {b : Builder} (h : ofPayload? p = .ok b) :
    b.keyLength = p.keyLength.toNat ∧ b.valueLength = p.valueLength.toNat ∧
      b.kind = p.transactionKind := by
  unfold ofPayload? at h
  cases htoken : p.token with
  | error e =>
    rw [htoken] at h
    cases h
  | ok octets =>
    rw [htoken] at h
    obtain rfl := Except.ok.inj h
    exact ⟨rfl, rfl, rfl⟩

/-- An update has a key from the next words and a value from those behind. -/
theorem build_update {b : Builder} (h : b.kind = .update) (s : σ) :
    b.build .transaction s =
      (.transaction ⟨some ⟨contents s 0 b.keyLength,
          some (contents s (wordsFor b.keyLength) b.valueLength), 0⟩, b.auxiliary, b.wait⟩,
        skip (wordsFor b.keyLength + wordsFor b.valueLength) s) := by
  have hkey := bytes_skip b.keyLength 0 s
  have hvalue := bytes_skip b.valueLength (wordsFor b.keyLength) s
  rw [skip_zero, Nat.zero_add] at hkey
  simp only [build, buildTransaction, h, hkey, hvalue]

/-- A removal has a key from the next words and no value. -/
theorem build_delete {b : Builder} (h : b.kind = .delete) (s : σ) :
    b.build .transaction s =
      (.transaction ⟨some ⟨contents s 0 b.keyLength, none, 1⟩, b.auxiliary, b.wait⟩,
        skip (wordsFor b.keyLength) s) := by
  have hkey := bytes_skip b.keyLength 0 s
  rw [skip_zero, Nat.zero_add] at hkey
  simp only [build, buildTransaction, h, hkey]

/-- Any key and any value are made by equally many words. -/
theorem ncard_build_update {b : Builder} (h : b.kind = .update) {key value : Bytes}
    (hkey : key.length = b.keyLength) (hvalue : value.length = b.valueLength) :
    {ws : List UInt32 | ws.length = wordsFor b.keyLength + wordsFor b.valueLength ∧
      (b.build .transaction (Cursor.ofWords ws)).1.fields = [key, value]}.ncard =
        256 ^ (4 * (wordsFor b.keyLength + wordsFor b.valueLength) -
          (b.keyLength + b.valueLength)) := by
  have hlengths : b.fieldLengths .transaction = [b.keyLength, b.valueLength] := by
    simp only [fieldLengths, h]
  have hread : ∀ ws : List UInt32, (b.build .transaction (Cursor.ofWords ws)).1.fields =
      (Entropy.fields [b.keyLength, b.valueLength] (Cursor.ofWords ws)).1 := by
    intro ws
    rw [← hlengths, ← b.fields_build]
  have hparts : [key, value].map List.length = [b.keyLength, b.valueLength] := by
    rw [List.map_cons, List.map_singleton, hkey, hvalue]
  simp only [hread]
  exact ncard_fields hparts

/-- Any fields of calls in a row are made by equally many words. -/
theorem ncard_buildAll (b : Builder) {operations : List Operation} {parts : List Bytes}
    (h : parts.map List.length = operations.flatMap b.fieldLengths) :
    {ws : List UInt32 | ws.length = wordsForAll (operations.flatMap b.fieldLengths) ∧
      (b.buildAll operations (Cursor.ofWords ws)).1.flatMap Call.fields = parts}.ncard =
        256 ^ (4 * wordsForAll (operations.flatMap b.fieldLengths) -
          (operations.flatMap b.fieldLengths).sum) := by
  rw [← ncard_fields h]
  simp only [← b.fields_buildAll]

/-- What a builder makes of words for a payload: keys and values of the configured lengths, each
from the next words and from no others; and whatever they are, from equally many words. -/
structure Draws (b : Builder) (p : Payload) : Prop where
  range : (1 ≤ p.keyLength.toNat ∧ p.keyLength.toNat ≤ 4096) ∧
    (1 ≤ p.valueLength.toNat ∧ p.valueLength.toNat ≤ 4096)
  update : p.transactionKind = .update → ∀ {σ : Type} [WordSource σ] (s : σ), ∃ key value,
    b.build .transaction s = (.transaction ⟨some ⟨key, some value, 0⟩, b.auxiliary, b.wait⟩,
      skip (wordsFor p.keyLength.toNat + wordsFor p.valueLength.toNat) s) ∧
    key.length = p.keyLength.toNat ∧ value.length = p.valueLength.toNat ∧
    key = contents s 0 p.keyLength.toNat ∧
    value = contents s (wordsFor p.keyLength.toNat) p.valueLength.toNat
  delete : p.transactionKind = .delete → ∀ {σ : Type} [WordSource σ] (s : σ), ∃ key,
    b.build .transaction s = (.transaction ⟨some ⟨key, none, 1⟩, b.auxiliary, b.wait⟩,
      skip (wordsFor p.keyLength.toNat) s) ∧
    key.length = p.keyLength.toNat ∧ key = contents s 0 p.keyLength.toNat
  rootRead : ∀ {σ : Type} [WordSource σ] (s : σ), b.build .rootRead s = (.rootRead, s)
  row : ∀ {σ : Type} [WordSource σ] (operations : List Operation) (s : σ),
    (b.buildAll operations s).1.flatMap Call.fields =
      ((spans 0 (operations.flatMap b.fieldLengths)).map fun x => contents s x.1 x.2) ∧
    (b.buildAll operations s).2 = skip (wordsForAll (operations.flatMap b.fieldLengths)) s
  apart : ∀ operations : List Operation, (spans 0 (operations.flatMap b.fieldLengths)).Pairwise
    fun x y => x.1 + wordsFor x.2 ≤ y.1
  pair : p.transactionKind = .update → ∀ key value : Bytes, key.length = p.keyLength.toNat →
    value.length = p.valueLength.toNat →
    {ws : List UInt32 |
      ws.length = wordsFor p.keyLength.toNat + wordsFor p.valueLength.toNat ∧
      (b.build .transaction (Cursor.ofWords ws)).1.fields = [key, value]}.ncard =
        256 ^ (4 * (wordsFor p.keyLength.toNat + wordsFor p.valueLength.toNat) -
          (p.keyLength.toNat + p.valueLength.toNat))
  even : ∀ (operations : List Operation) (parts : List Bytes),
    parts.map List.length = operations.flatMap b.fieldLengths →
    {ws : List UInt32 | ws.length = wordsForAll (operations.flatMap b.fieldLengths) ∧
      (b.buildAll operations (Cursor.ofWords ws)).1.flatMap Call.fields = parts}.ncard =
        256 ^ (4 * wordsForAll (operations.flatMap b.fieldLengths) -
          (operations.flatMap b.fieldLengths).sum)

/-- The builder of a payload that is accepted. -/
theorem draws {p : Payload} {b : Builder} (hvalid : p.validate = .ok ())
    (h : ofPayload? p = .ok b) : b.Draws p := by
  obtain ⟨hkey, hvalue, -⟩ := p.validate_eq_ok_iff.mp hvalid
  obtain ⟨hkeys, hvalues, hkind⟩ := parts_of_ofPayload? h
  constructor
  case range => exact ⟨hkey, hvalue⟩
  case update =>
    intro hupdate σ _ s
    rw [← hkeys, ← hvalues]
    exact ⟨_, _, build_update (hkind.trans hupdate) s, length_contents .., length_contents ..,
      rfl, rfl⟩
  case delete =>
    intro hdelete σ _ s
    rw [← hkeys]
    exact ⟨_, build_delete (hkind.trans hdelete) s, length_contents .., rfl⟩
  case rootRead => exact fun _ => rfl
  case row =>
    intro σ _ operations s
    have hread := b.fields_buildAll operations s
    rw [Entropy.fields_eq] at hread
    exact Prod.mk.inj hread
  case apart => exact fun _ => spans_apart _ _
  case pair =>
    intro hupdate key value hk hv
    rw [← hkeys] at hk ⊢
    rw [← hvalues] at hv ⊢
    exact ncard_build_update (hkind.trans hupdate) hk hv
  case even => exact fun _ _ => b.ncard_buildAll

end Builder

/-! ## What else a user draws -/

/-- A pick takes some words, or none. -/
theorem Selector.exists_skip_pick {σ : Type} [WordSource σ] (selector : Selector) (s : σ) :
    ∃ n, (selector.pick s).2.2 = skip n s := by
  cases hmode : selector.mode with
  | random =>
    have hsource : (selector.pick s).2.2 = (bounded selector.pool.size.toUInt64 s).2 := by
      rw [pick, pickIndex, hmode]
    rw [hsource]
    rcases bounded_snd selector.pool.size_ne_zero s with h | h
    · exact ⟨2, h.trans (draw64_snd s)⟩
    · exact ⟨2 + 2, by rw [h, draw64_snd, draw64_snd, skip_add]⟩
  | roundRobin =>
    rw [pick, pickIndex_roundRobin hmode]
    exact ⟨0, rfl⟩

namespace Agenda

/-- A call is made up from a later word on, and what comes after it begins where it ends. -/
theorem exists_skip_next (plan : Plan) (a : Agenda) :
    ∃ n, 0 < n ∧ (a.next plan).1.call =
        (plan.builder.build (a.issue plan).call.operation (skip n a.source)).1 ∧
      (a.next plan).2.source =
        skip (n + plan.builder.wordsOf (a.issue plan).call.operation) a.source := by
  -- the words for the step, at least one, and those for the shard come before the fields
  obtain ⟨m, hm, hchoose⟩ := plan.weights.exists_skip_choose a.source
  obtain ⟨n, hpick⟩ := a.selector.exists_skip_pick (skip m a.source)
  rw [← skip_add, ← hchoose] at hpick
  have hread := plan.builder.fields_build (a.issue plan).call.operation (skip (m + n) a.source)
  rw [Entropy.fields_eq, ← skip_add] at hread
  refine ⟨m + n, Nat.add_pos_left hm n, ?_, ?_⟩
  · rw [next_eq, a.operation_issue, ← hpick]
    rfl
  · rw [Builder.wordsOf, ← (Prod.mk.inj hread).2, next_eq, a.operation_issue, ← hpick]
    rfl

/-- Each call of a user is made up from some word of its generator on, behind all words that the
one before was made of. -/
theorem exists_positions (plan : Plan) (a : Agenda) : ∃ first : Nat → Nat, ∀ n,
    let x := (a.after plan n).issue plan
    x.call = (plan.builder.build x.call.operation (skip (first n) a.source)).1 ∧
      first n + plan.builder.wordsOf x.call.operation < first (n + 1) := by
  choose more hpos hcall hsource using fun n => exists_skip_next plan (a.after plan n)
  -- what was taken before a call is what was taken between calls and for calls
  have htaken : ∀ n, (a.after plan n).source = skip (∑ j ∈ Finset.range n, (more j +
      plan.builder.wordsOf ((a.after plan j).issue plan).call.operation)) a.source := by
    intro n
    induction n with
    | zero => rfl
    | succ n ih => rw [after, hsource, ih, ← skip_add, Finset.sum_range_succ]
  refine ⟨fun n => (∑ j ∈ Finset.range n, (more j +
    plan.builder.wordsOf ((a.after plan j).issue plan).call.operation)) + more n, fun n => ⟨?_, ?_⟩⟩
  · have h := hcall n
    rw [htaken, ← skip_add] at h
    exact h
  · have hnext := hpos (n + 1)
    simp only [Finset.sum_range_succ]
    omega

end Agenda

namespace Engine

open ShardLoad.System

/-- **Keys and values are made of words of their own.**  A payload that is accepted has a
builder, which makes keys and values of the configured lengths, each from the next words that
its source hands out and from no others; and of all words that there may be, equally many make
one key and value and another one.  In a run, whatever happens in it, each call of a user is made
up from its generator, behind all words that its earlier calls were made of. -/
theorem fields_of_own_words :
    (∀ p : Payload, p.validate = .ok () → ∃ b, Builder.ofPayload? p = .ok b ∧ b.Draws p) ∧
    (∀ {c : Config} {o : RunOptions} {around : Surroundings} {t : Terms} {s₀ s : System}
        {issues : List (Nat × Issue)}, prepare c o around = .ok (t, s₀) →
      Issuing t s₀ issues s →
      Builder.ofPayload? c.payload = .ok t.plan.builder ∧ t.plan.builder.Draws c.payload ∧
      ∀ i < c.settings.virtualUsers.toNat, ∃ first : Nat → Nat, ∀ n x,
        (issuesOf issues i)[n]? = some x →
          x.call =
            (t.plan.builder.build x.call.operation (skip (first n) (source o around i))).1 ∧
          first n + t.plan.builder.wordsOf x.call.operation < first (n + 1)) := by
  refine ⟨fun p hvalid => ?_, fun {c o around t s₀ s issues} h hc => ?_⟩
  · obtain ⟨b, hb⟩ := Builder.exists_ofPayload? hvalid
    exact ⟨b, hb, Builder.draws hvalid hb⟩
  · obtain ⟨pool, hplan, hagenda⟩ := exists_plan_of_prepare h
    obtain ⟨hvalid, -, -, -, hbuilder⟩ := parts_of_plan hplan
    have hpayload := c.payload.validate_eq_ok_iff.mpr (c.validate_eq_ok_iff.mp hvalid).payload
    refine ⟨hbuilder, Builder.draws hpayload hbuilder, fun i hi => ?_⟩
    rw [← size_of_prepare h hc.mayReach] at hi
    obtain ⟨u₀, hu₀, hfollows⟩ :=
      follows_of_issuing hc (fresh_of_prepare h) (Array.getElem?_eq_getElem hi)
    obtain ⟨first, hfirst⟩ := u₀.agenda.exists_positions t.plan
    refine ⟨first, fun n x hx => ?_⟩
    rw [hfollows.issues, Agenda.issues, List.getElem?_map] at hx
    obtain ⟨k, hk, rfl⟩ := Option.map_eq_some_iff.mp hx
    obtain ⟨hlt, rfl⟩ := List.getElem?_eq_some_iff.mp hk
    have hsource : u₀.agenda.source = source o around i := by rw [hagenda hu₀]
    rw [List.getElem_range, ← hsource]
    exact hfirst n

/-- Keys of five octets and values of seven: of all rows of four words, the octets that are
dropped of two of them are free.  A root read between two updates takes no words.  And the third
user of a run makes up a hundred and sixteen calls, each behind the one before. -/
theorem fields_of_own_words_odd :
    (∃ b, Builder.ofPayload? ⟨5, 7, "", .update, true⟩ = .ok b ∧
      {ws : List UInt32 | ws.length = 4 ∧ (b.build .transaction (Cursor.ofWords ws)).1.fields =
        [[1, 2, 3, 4, 5], [6, 7, 8, 9, 10, 11, 12]]}.ncard = 2 ^ 32 ∧
      (b.buildAll [.transaction, .rootRead, .transaction] (Source.seeded 9)).2 =
        skip 8 (Source.seeded 9)) ∧
    ∃ t s₀ s issues,
      prepare Config.default ⟨none, some 7, false⟩
        ⟨.scripted ⟨.answer, .ofMillis 20⟩, 3, fun _ => .seeded 0, 0⟩ = .ok (t, s₀) ∧
      Issuing t s₀ issues s ∧ (issuesOf issues 2).length = 116 ∧
      ∃ first : Nat → Nat, ∀ n x, (issuesOf issues 2)[n]? = some x →
        x.call = (t.plan.builder.build x.call.operation
          (skip (first n) (Source.forUser 7 2))).1 ∧
        first n + t.plan.builder.wordsOf x.call.operation < first (n + 1) := by
  constructor
  · obtain ⟨b, hb, hdraws⟩ := fields_of_own_words.1 ⟨5, 7, "", .update, true⟩ (by decide +kernel)
    have hcount := hdraws.pair rfl [1, 2, 3, 4, 5] [6, 7, 8, 9, 10, 11, 12] rfl rfl
    have htaken := (hdraws.row [.transaction, .rootRead, .transaction] (Source.seeded 9)).2
    obtain ⟨hkeys, hvalues, hkind⟩ := Builder.parts_of_ofPayload? hb
    refine ⟨b, hb, hcount.trans (by decide), htaken.trans ?_⟩
    have hwords :
        wordsForAll ([.transaction, .rootRead, .transaction].flatMap b.fieldLengths) = 8 := by
      simp only [List.flatMap_cons, List.flatMap_nil, Builder.fieldLengths, hkeys, hvalues, hkind]
      decide
    rw [hwords]
  · obtain ⟨t, s₀, h⟩ := exists_prepare (c := Config.default) (by decide +kernel)
      ⟨none, some 7, false⟩ ⟨.scripted ⟨.answer, .ofMillis 20⟩, 3, fun _ => .seeded 0, 0⟩
    obtain ⟨hround, hrounds⟩ := rounds_of_default rfl h rfl
    obtain ⟨s, issues, u, hc, -, hu, hn⟩ :=
      exists_issuing_run h (steady_of_prepare rfl h) (by omega) (by decide) rfl (i := 2) (by decide)
    obtain ⟨u₀, -, hfollows⟩ := follows_of_issuing hc (fresh_of_prepare h) hu
    refine ⟨t, s₀, s, issues, h, hc, ?_, (fields_of_own_words.2 h hc).2.2 2 (by decide)⟩
    rw [hfollows.issues, Agenda.length_issues, hn, hrounds]

end Engine
end ShardLoad
