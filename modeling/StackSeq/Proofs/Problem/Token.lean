import StackSeq.Problem.Token
import StackSeq.Proofs.Json.RoundTrip
import StackSeq.Proofs.Text.Words

/-!
# Problem tokens read back

The token of a problem yields the problem if it breaks no rule, and else the rule that it breaks.
Each layer of a token is read as what was written: the blanks around it are dropped
(`trim_append_blanks`) and none stands in it (`isBlank_of_mem_encode`), the bytes are those of a
text (`fromUTF8?_toUTF8`), the text is that of an array (`parse?_compact`), and the array is that of
the problem (`ofRecord?_toRecord`). So nothing but the check decides about a token: `ofToken_token`.
-/

namespace StackSeq

/-! ## Texts and bytes -/

namespace Text

variable {c : Char}

namespace Base64Url

theorem isBlank_of_mem_encode {bytes : List UInt8} (h : c ∈ encode bytes) : isBlank c = false := by
  have all : ∀ d ∈ List.range 64, isBlank (digitChar d) = false := by decide
  obtain ⟨d, hd, rfl⟩ := List.mem_map.1 h
  exact all d (List.mem_range.2 (lt_of_mem_toDigits hd))

end Base64Url

theorem fromUTF8?_toUTF8 (s : String) :
    String.fromUTF8? ⟨s.toUTF8.data.toList.toArray⟩ = some s := by
  rw [Array.toArray_toList]
  exact dif_pos s.isValidUTF8

end Text

/-! ## Arrays of problems -/

theorem Sequence.ofJson?_toJson (terms : Sequence) : ofJson? terms.toJson = some terms :=
  Json.toList?_arr_map Json.toInt64?_ofInt64 terms

theorem Sequence.paired_toJson (terms : Sequence) : terms.toJson.Paired :=
  .arr <| List.forall_mem_map.2 fun _ _ => .int _

namespace Problem

/-- The array of a foil within that of a problem is read as the foil. -/
theorem foilOfRecord?_pair (foil : Foil) :
    foilOfRecord? (.arr [foil.sequence.toJson, .str foil.source]) = some foil := by
  rw [foilOfRecord?, Sequence.ofJson?_toJson]
  rfl

theorem ofRecord?_toRecord (p : Problem) : ofRecord? p.toRecord = some (tokenVersion, p) := by
  rw [toRecord, ofRecord?, Json.toHalfWord?_ofHalfWord, Json.toWord?_ofWord,
    Json.toList?_arr_map Sequence.ofJson?_toJson, Sequence.ofJson?_toJson,
    Json.toList?_arr_map foilOfRecord?_pair]
  rfl

theorem paired_toRecord (p : Problem) : p.toRecord.Paired := by
  have hpair : ∀ foil : Foil, (Json.arr [foil.sequence.toJson, .str foil.source]).Paired := by
    intro foil
    refine .arr ?_
    simp only [List.forall_mem_cons]
    exact ⟨foil.sequence.paired_toJson, .str _, List.forall_mem_nil _⟩
  refine .arr ?_
  simp only [List.forall_mem_cons]
  exact ⟨.int _, .str _, .int _, .arr (List.forall_mem_map.2 fun terms _ => terms.paired_toJson),
    p.correct.paired_toJson, .arr (List.forall_mem_map.2 fun foil _ => hpair foil),
    List.forall_mem_nil _⟩

/-! ## Tokens -/

theorem recordOfBytes?_toUTF8 (p : Problem) :
    recordOfBytes? p.toRecord.compact.toUTF8.data.toList = some (tokenVersion, p) := by
  rw [recordOfBytes?, Text.fromUTF8?_toUTF8, Option.bind_some,
    Json.parse?_compact p.paired_toRecord, Option.bind_some, ofRecord?_toRecord]

/-- **Nothing but the check decides what the token of a problem yields.** -/
theorem ofToken_token (p : Problem) :
    ofToken p.token = match p.check with
      | .error fault => .error (.fault fault)
      | .ok () => .ok p := by
  have htrim : Text.trim p.token.toList = p.token.toList := by
    rw [token, String.toList_ofList]
    exact Text.trim_of_all_not_blank fun c => Text.Base64Url.isBlank_of_mem_encode
  rw [ofToken, htrim, token, String.toList_ofList, Text.Base64Url.decode?_encode]
  dsimp only
  rw [recordOfBytes?_toUTF8]
  rfl

theorem ofToken_append_blanks {before token after : String}
    (hbefore : ∀ c ∈ before.toList, Text.isBlank c = true)
    (hafter : ∀ c ∈ after.toList, Text.isBlank c = true) :
    ofToken (before ++ token ++ after) = ofToken token := by
  rw [ofToken, String.toList_append, String.toList_append, Text.trim_append_blanks hbefore hafter,
    ofToken]

/-- A rule is broken in the same words where it is found by a check and where a token shows it. -/
theorem message_fault (fault : ProblemFault) :
    (TokenError.fault fault).diagnostic.message = fault.diagnostic.message := by
  cases fault <;> rfl

/-- **The problems that tokens yield are those that break no rule.** A problem that breaks none is
what its own token yields; the token of any other is refused with the words about the rule that it
breaks. Blanks around a token make no difference, and no token yields a problem that breaks a
rule. -/
theorem token_round_trip (p : Problem) :
    (p.check = .ok () → ofToken p.token = .ok p) ∧
      (∀ fault, p.check = .error fault → ∃ e, ofToken p.token = .error e ∧
        e.diagnostic.kind = .decodeFailed ∧ e.diagnostic.message = fault.diagnostic.message) ∧
      (∀ before token after : String, (∀ c ∈ before.toList, Text.isBlank c = true) →
        (∀ c ∈ after.toList, Text.isBlank c = true) →
          ofToken (before ++ token ++ after) = ofToken token) ∧
      ∀ token q, ofToken token = .ok q → q.check = .ok () := by
  refine ⟨fun hc => ?_, fun fault hc => ?_, fun _ _ _ => ofToken_append_blanks,
    fun _ _ => check_of_ofToken⟩
  · rw [ofToken_token, hc]
  · rw [ofToken_token, hc]
    exact ⟨_, rfl, rfl, message_fault fault⟩

/-- The token of a problem with a line break after it, and that of the same problem with all terms
taken for its seed. -/
theorem token_round_trip_differences :
    let p : Problem :=
      { program := "6", seedLen := 2, examples := [[2, 1, 1, 0, 1, -1]]
        correct := [1, 2, -1, 3, -4, 7]
        foils := [⟨[1, 2, -1, 3, -4, 3], "496"⟩, ⟨[1, 2, -3, -7, -52, -2711], "a76"⟩] }
    let q : Problem := { p with seedLen := 6 }
    p.check = .ok () ∧ ofToken (p.token ++ "\n") = .ok p ∧
      q.check = .error (.noGrowth 6 6) ∧ ∃ e, ofToken q.token = .error e ∧
        e.diagnostic.message = "sequences have 6 terms, not more than the 6 seed terms" := by
  intro p q
  have hp : p.check = .ok () := by decide +kernel
  have hq : q.check = .error (.noGrowth 6 6) := by decide +kernel
  obtain ⟨hround, -, hblanks, -⟩ := token_round_trip p
  obtain ⟨e, he, -, hmessage⟩ := (token_round_trip q).2.1 _ hq
  have hlineBreak := hblanks "" p.token "\n" (by simp) (List.all_eq_true.1 (by decide))
  rw [hround hp, String.empty_append] at hlineBreak
  exact ⟨hp, hlineBreak, hq, e, he, hmessage.trans (by decide)⟩

end Problem

end StackSeq
