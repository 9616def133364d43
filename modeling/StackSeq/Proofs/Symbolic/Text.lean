import StackSeq.Proofs.Program.Text
import StackSeq.Run
import StackSeq.Symbolic.Expr

/-!
# What the text of an expression computes

The text of an expression is a program but for the names of its unknowns. With the literals of their
values in the place of these it is the text of the operations that compute the expression
(`replace_text`), and a run of these leaves the stack as it was and puts the value on top
(`runOps_code_append`). Main statement: `text_computes_value`.

Both are inductions on the expression. The run is stated over the operations that follow, since
those of the right operand follow those of the left one and run on a stack that has the left value
on top.
-/

namespace StackSeq.Expr

/-! ## The operations of an expression -/

/-- The operations that compute an expression whose unknowns have these values. -/
def code (env : Assignment) : Expr → List Op
  | lit r => [.push r]
  | top i => [.push (env.top i)]
  | bottom i => [.push (env.bottom i)]
  | len i => [.push (env.len i)]
  | apply op lhs rhs => lhs.code env ++ rhs.code env ++ [.binary op]

variable (env : Assignment)

theorem code_ne_nil (e : Expr) : e.code env ≠ [] := by
  cases e <;> simp [code]

/-- **The operations of an expression put its value on top**, whatever follows. -/
theorem runOps_code_append (e : Expr) (rest : List Op) (s : Stack) :
    runOps (e.code env ++ rest) 0 s = runOps rest 0 (s.push (e.value env)) := by
  induction e generalizing rest s with
  | lit r => rfl
  | top i => rfl
  | bottom i => rfl
  | len i => rfl
  | apply op lhs rhs ihl ihr =>
    rw [code, List.append_assoc, List.append_assoc, ihl, ihr]
    show runOps rest 0 _ = _
    -- The right value is on top of the left one and is popped first.
    simp only [Op.effect, Stack.top_push, Stack.rest_push, value]

theorem evaluate_code (e : Expr) (values : List Rational) :
    (Program.mk (e.code env)).evaluate values = values ++ [e.value env] := by
  have hrun := e.runOps_code_append env [] (.ofList values)
  rw [List.append_nil] at hrun
  rw [Program.evaluate, Program.run, hrun, runOps, Stack.toList_push, Stack.toList_ofList]

/-! ## Names and their values -/

namespace Assignment

/-- The value of the unknown that has this name: `t`, `b` or `n` with a number. -/
def named? (env : Assignment) : List Char → Option Rational
  | 't' :: number => (Text.natural? number).map env.top
  | 'b' :: number => (Text.natural? number).map env.bottom
  | 'n' :: number => (Text.natural? number).map env.len
  | _ => none

/-- The literal of its value in the place of a name, and any other word as it is. -/
def replaceWord (env : Assignment) (word : List Char) : String :=
  ((env.named? word).map Rational.text).getD (String.ofList word)

/-- The text with the literals of values in the place of names, which stand between spaces. -/
def replace (env : Assignment) (s : String) : String :=
  Text.join " " ((Text.fields (· == ' ') s.toList).map env.replaceWord)

/-- Texts with a space between them are replaced one by one. -/
theorem replace_append (s t : String) :
    env.replace (s ++ " " ++ t) = env.replace s ++ " " ++ env.replace t := by
  have hspace : (s ++ " " ++ t).toList = s.toList ++ ' ' :: t.toList := by
    rw [String.toList_append, String.toList_append, List.append_assoc]
    rfl
  have hfields : ∀ cs, (Text.fields (· == ' ') cs).map env.replaceWord ≠ [] := fun cs =>
    mt List.map_eq_nil_iff.1 (Text.fields_ne_nil _ cs)
  rw [replace, hspace, Text.fields_append_cons (by decide), List.map_append,
    Text.join_append (hfields _) (hfields _)]
  rfl

theorem replace_of_notMem {s : String} (h : ' ' ∉ s.toList) :
    env.replace s = env.replaceWord s.toList := by
  have hfields : Text.fields (· == ' ') s.toList = [s.toList] :=
    Text.fields_of_forall_not fun c hc => beq_false_of_ne fun hspace => h (hspace ▸ hc)
  rw [replace, hfields, List.map_singleton, Text.join_singleton]

/-- A name is replaced by the literal of its value. -/
theorem replace_name {kind : String} {c : Char} {values : Nat → Rational}
    (hkind : kind.toList = [c]) (hspace : c ≠ ' ')
    (hnamed : ∀ number, env.named? (c :: number) = (Text.natural? number).map values)
    (i : Nat) : env.replace (kind ++ toString i) = (values i).text := by
  have hname : (kind ++ toString i).toList = c :: Nat.toDigits 10 i := by
    rw [String.toList_append, hkind]
    exact congrArg (c :: ·) String.toList_ofList
  have hword : ' ' ∉ (kind ++ toString i).toList := by
    rw [hname, List.mem_cons, not_or]
    exact ⟨hspace.symm, fun h => absurd (Text.isDigit_of_mem_toDigits h) (by decide)⟩
  rw [replace_of_notMem env hword, hname, replaceWord, hnamed, Text.natural?_toDigits]
  rfl

theorem named?_eq_none {word : List Char} (h : ∀ c ∈ word, c ∉ ['t', 'b', 'n']) :
    env.named? word = none := by
  unfold named?
  split
  · exact absurd (by decide) (h 't' List.mem_cons_self)
  · exact absurd (by decide) (h 'b' List.mem_cons_self)
  · exact absurd (by decide) (h 'n' List.mem_cons_self)
  · rfl

/-- Literals are no names. -/
theorem replace_literal (r : Rational) : env.replace r.text = r.text := by
  have hspace : ' ' ∉ r.text.toList := fun h => absurd (r.isBlank_of_mem_text h) (by decide)
  have hnamed : env.named? r.text.toList = none := by
    refine named?_eq_none env fun c hc hletter => ?_
    simp only [List.mem_cons, List.not_mem_nil, or_false] at hletter
    rcases hletter with rfl | rfl | rfl <;> exact absurd (r.mem_text hc) (by decide)
  rw [replace_of_notMem env hspace, replaceWord, hnamed, String.ofList_toList]
  rfl

theorem replace_symbol (op : BinOp) : env.replace op.symbol = op.symbol := by
  cases op <;> rfl

end Assignment

/-! ## The text of an expression -/

/-- **With values for the names, the text of an expression is that of its operations.** -/
theorem replace_text (e : Expr) : env.replace e.text = opsText (e.code env) := by
  induction e with
  | lit r => exact env.replace_literal r
  | top i => exact env.replace_name rfl (by decide) (fun _ => rfl) i
  | bottom i => exact env.replace_name rfl (by decide) (fun _ => rfl) i
  | len i => exact env.replace_name rfl (by decide) (fun _ => rfl) i
  | apply op lhs rhs ihl ihr =>
    have hoperands : lhs.code env ++ rhs.code env ≠ [] := by simp [code_ne_nil]
    rw [text, env.replace_append, env.replace_append, ihl, ihr, env.replace_symbol, code,
      opsText_append hoperands (List.cons_ne_nil _ _),
      opsText_append (lhs.code_ne_nil env) (rhs.code_ne_nil env)]
    rfl

/-- **The text of an expression computes its value.** With the literals of values in the place of
the names it is a program, which puts the value of the expression on top of any stack. -/
theorem text_computes_value (e : Expr) (env : Assignment) (values : List Rational) :
    ∃ p, Program.parse (env.replace e.text) = .ok p ∧
      p.evaluate values = values ++ [e.value env] := by
  refine ⟨⟨e.code env⟩, ?_, evaluate_code env e values⟩
  rw [replace_text, Program.parse, Program.words_opsText, Program.opsOfWords_flatMap_words]
  rfl

end StackSeq.Expr
