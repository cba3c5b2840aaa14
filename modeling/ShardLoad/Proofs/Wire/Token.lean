import ShardLoad.Call
import ShardLoad.Config.Validate
import ShardLoad.Entropy.Source
import ShardLoad.Proofs.Config.Validity
import ShardLoad.Proofs.Text.SixBits

/-!
# The token that goes along

A token is a text in the configuration, octets in a request and a text again in the log.  Since
octets have one form in Base64, the text in the log is the one in the configuration, without the
blanks around it; a reader of Base64 that forgave a missing mark or stray bits would let the two
differ.  An empty token is none, so nothing is sent of it and the log has `null`.

* `Payload.token_eq_ok_iff`: which tokens are read.
* `Builder.auxiliary_of_payload`: what a request has of the token.
* `Json.quote_encode`: the letters of Base64 stand for themselves between quotes.
* `Payload.keepsToken`: from the configuration to the log.
-/

namespace ShardLoad

/-- A token is read as octets exactly when it is their text. -/
theorem Payload.token_eq_ok_iff {p : Payload} {octets : Bytes} :
    p.token = .ok octets ↔ Text.trim p.auxiliary = Base64.encode octets :=
  Base64.decode_utf8_eq_ok_iff

/-- Only no octets have an empty text. -/
theorem Base64.encode_eq_empty_iff {octets : Bytes} : encode octets = "" ↔ octets = [] := by
  constructor
  · intro h
    have hwritten : encodeOctets octets = [] := by
      rw [← utf8_encode, h]
      rfl
    exact Decidable.byContradiction fun hne => encodeOctets_ne_nil hne hwritten
  · rintro rfl
    rfl

namespace Json

/-- Characters that stand for themselves do so in a row. -/
theorem flatMap_escapeChar {cs : List Char} (h : ∀ c ∈ cs, escapeChar c = [c]) :
    cs.flatMap escapeChar = cs := by
  induction cs with
  | nil => rfl
  | cons c cs ih =>
    rw [List.flatMap_cons, h c List.mem_cons_self, ih fun d hd => h d (List.mem_cons_of_mem c hd)]
    rfl

theorem escapeChar_letter : ∀ v : Fin 64, escapeChar (Base64.letter v) = [Base64.letter v] := by
  decide +kernel

/-- Base64 needs no escapes. -/
theorem quote_encode (octets : Bytes) :
    quote (Base64.encode octets) = '"' :: (Base64.encode octets).toList ++ ['"'] := by
  obtain ⟨groups, pads, -, htext⟩ := Base64.isForm_encode octets
  have hplain : ∀ c ∈ (Base64.encode octets).toList, escapeChar c = [c] := by
    intro c hc
    rw [htext, List.mem_append] at hc
    obtain hletter | hmark := hc
    · obtain ⟨v, -, rfl⟩ := List.mem_map.mp hletter
      exact escapeChar_letter v
    · obtain rfl := List.eq_of_mem_replicate hmark
      rfl
  rw [quote, flatMap_escapeChar hplain]

end Json

namespace Builder

/-- What a builder sends along of a token that was read. -/
theorem auxiliary_of_payload {p : Payload} {b : Builder} (h : ofPayload? p = .ok b) :
    ∃ octets, Text.trim p.auxiliary = Base64.encode octets ∧
      b.auxiliary = if octets = [] then none else some octets := by
  unfold ofPayload? at h
  rcases htoken : p.token with e | octets
  · rw [htoken] at h
    cases h
  · rw [htoken] at h
    obtain rfl := Except.ok.inj h
    exact ⟨octets, Payload.token_eq_ok_iff.mp htoken, rfl⟩

/-- All requests have the token of their builder. -/
theorem auxiliary_buildTransaction {σ : Type} [Entropy.WordSource σ] (b : Builder) (source : σ) :
    (b.buildTransaction source).1.auxiliary = b.auxiliary := by
  unfold buildTransaction
  cases b.kind <;> rfl

end Builder

/-- The token of a payload is the same text throughout. -/
structure Payload.KeepsToken (σ : Type) [Entropy.WordSource σ] (p : Payload) : Prop where
  /-- It is read as octets exactly when it is the form that the standard gives them. -/
  read_iff : ∀ octets, p.token = .ok octets ↔ Base64.IsForm octets (Text.trim p.auxiliary)
  /-- What is read as the same octets is the same text. -/
  alone : ∀ (q : Payload) (octets : Bytes), p.token = .ok octets → q.token = .ok octets →
    Text.trim q.auxiliary = Text.trim p.auxiliary
  /-- If the payload is accepted, there is somebody to build its requests. -/
  accepted : p.validate = .ok () → ∃ b, Builder.ofPayload? p = .ok b
  /-- A request has no token exactly when the text is empty, and the log has the text. -/
  logged : ∀ b, Builder.ofPayload? p = .ok b → ∀ source : σ, ∃ r,
    (b.build .transaction source).1 = .transaction r ∧
      (r.auxiliary = none ↔ Text.trim p.auxiliary = "") ∧
      (Call.transaction r).toJson.field? "auxiliary" =
        some (if Text.trim p.auxiliary = "" then .null else .string (Text.trim p.auxiliary)) ∧
      Json.quote (Text.trim p.auxiliary) = '"' :: (Text.trim p.auxiliary).toList ++ ['"']

/-- **The token of every payload is the same text from the configuration to the log.** -/
theorem Payload.keepsToken (σ : Type) [Entropy.WordSource σ] (p : Payload) : p.KeepsToken σ where
  read_iff octets := by rw [token_eq_ok_iff, Base64.isForm_iff]
  alone q octets hp hq := by rw [token_eq_ok_iff.mp hp, token_eq_ok_iff.mp hq]
  accepted := Builder.exists_ofPayload?
  logged b hb source := by
    obtain ⟨octets, htext, hauxiliary⟩ := Builder.auxiliary_of_payload hb
    have hsent : (b.buildTransaction source).1.auxiliary =
        if octets = [] then none else some octets := by
      rw [Builder.auxiliary_buildTransaction, hauxiliary]
    refine ⟨(b.buildTransaction source).1, rfl, ?_, ?_, ?_⟩
    · rw [hsent, htext, Base64.encode_eq_empty_iff]
      split <;> simp [*]
    · show some (Json.ofOption Call.octetsJson (b.buildTransaction source).1.auxiliary) = _
      rw [hsent, htext]
      by_cases hempty : octets = []
      · rw [if_pos hempty, if_pos (Base64.encode_eq_empty_iff.mpr hempty)]
        rfl
      · rw [if_neg hempty, if_neg fun h => hempty (Base64.encode_eq_empty_iff.mp h)]
        rfl
    · rw [htext]
      exact Json.quote_encode octets

/-- A token of one octet with blanks around it: the log has its four letters. -/
theorem Payload.keepsToken_blanks :
    Builder.ofPayload? ⟨4, 5, " TQ==\n", .update, true⟩ =
        .ok ⟨4, 5, some [0x4d], .update, true⟩ ∧
      ∃ r, ((⟨4, 5, some [0x4d], .update, true⟩ : Builder).build .transaction
          (Entropy.Source.seeded 9)).1 = .transaction r ∧ r.auxiliary ≠ none ∧
        (Call.transaction r).toJson.field? "auxiliary" = some (.string "TQ==") := by
  have htrim : Text.trim " TQ==\n" = "TQ==" := by decide +kernel
  have htext : "TQ==" = Base64.encode [0x4d] := by decide +kernel
  have htoken : token ⟨4, 5, " TQ==\n", .update, true⟩ = .ok [0x4d] :=
    token_eq_ok_iff.mpr (htrim.trans htext)
  have hbuilder : Builder.ofPayload? ⟨4, 5, " TQ==\n", .update, true⟩ =
      .ok ⟨4, 5, some [0x4d], .update, true⟩ := by
    rw [Builder.ofPayload?, htoken]
    rfl
  obtain ⟨r, hbuilt, habsent, hlogged, -⟩ :=
    (keepsToken Entropy.Source ⟨4, 5, " TQ==\n", .update, true⟩).logged _ hbuilder (.seeded 9)
  have hne : Text.trim " TQ==\n" ≠ "" := by rw [htrim]; decide
  refine ⟨hbuilder, r, hbuilt, fun h => hne (habsent.mp h), ?_⟩
  rw [hlogged, if_neg hne, htrim]

end ShardLoad
