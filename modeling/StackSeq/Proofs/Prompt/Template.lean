import Mathlib.Data.List.Nodup
import StackSeq.Check
import StackSeq.Proofs.Prompt.Layout
import StackSeq.Proofs.Settings.Accepted

/-!
# Which prompts can be written

Whether a template can be rendered, and what is wrong with it if not, depends on which variables
have values and not on the values: `firstFault?` is the fault of a template where a set of variables
has values, and rendering fails with that fault and for no other reason (`render_eq_error_iff`). The
check of a template renders it with stand-ins, so it finds the same fault as any rendering in which
the same variables have values: `check_eq_ok_iff`, `check_eq_error_iff`. Each prompt gives values to
the variables that its template is checked for, and so the checks predict the prompts:
`check_predicts_prompts`.
-/

namespace StackSeq

namespace Template

variable {bindings : Bindings} {bound : Variable → Bool} {template : String} {e : TemplateError}

/-! ## Faults -/

/-- What is wrong with a placeholder of this name where these variables have values. -/
def nameFault? (bound : Variable → Bool) (name : String) : Option TemplateError :=
  match Variable.ofName? name with
  | none => some (.notAllowed name)
  | some v => if bound v then none else some (.notAvailable name)

/-- What is wrong with a part of a template. -/
def pieceFault? (bound : Variable → Bool) : Piece → Option TemplateError
  | .literal _ => none
  | .placeholder name => nameFault? bound (String.ofList name)

/-- What is wrong with a template, first in its order. -/
def firstFault? (bound : Variable → Bool) (template : String) : Option TemplateError :=
  (pieces template.toList).findSome? (pieceFault? bound)

/-! ## Rendering -/

/-- The variables that have values. -/
def domain (bindings : Bindings) (v : Variable) : Bool := (bindings v).isSome

theorem lookUp_eq_error_iff {name : String} :
    lookUp bindings name = .error e ↔ nameFault? (domain bindings) name = some e := by
  unfold lookUp nameFault? domain
  cases Variable.ofName? name with
  | none => simp
  | some v =>
    dsimp only
    cases bindings v <;> simp

theorem renderPiece_eq_error_iff {piece : Piece} :
    renderPiece bindings piece = .error e ↔ pieceFault? (domain bindings) piece = some e := by
  cases piece with
  | literal text => simp [renderPiece, pieceFault?]
  | placeholder name => rw [renderPiece, map_eq_error_iff, lookUp_eq_error_iff, pieceFault?]

/-- The first part with a fault decides. -/
theorem renderPieces_eq_error_iff {parts : List Piece} :
    renderPieces bindings parts = .error e ↔
      parts.findSome? (pieceFault? (domain bindings)) = some e := by
  induction parts with
  | nil => simp [renderPieces]
  | cons piece rest ih =>
    rw [renderPieces, List.findSome?_cons]
    cases hpiece : renderPiece bindings piece with
    | error fault =>
      rw [renderPiece_eq_error_iff.1 hpiece]
      simp [bind, Except.bind]
    | ok text =>
      have hnone : pieceFault? (domain bindings) piece = none := by
        cases hfault : pieceFault? (domain bindings) piece with
        | none => rfl
        | some fault =>
          rw [renderPiece_eq_error_iff.2 hfault] at hpiece
          cases hpiece
      rw [hnone]
      simp only [← ih]
      cases renderPieces bindings rest <;> simp [bind, Except.bind]

/-- **Rendering fails with the first fault of the template.** -/
theorem render_eq_error_iff :
    render template bindings = .error e ↔ firstFault? (domain bindings) template = some e := by
  rw [render, map_eq_error_iff, renderPieces_eq_error_iff, firstFault?]

/-- **A template without a fault is rendered.** -/
theorem exists_render_iff :
    (∃ text, render template bindings = .ok text)
      ↔ firstFault? (domain bindings) template = none := by
  constructor
  · rintro ⟨text, h⟩
    cases hfault : firstFault? (domain bindings) template with
    | none => rfl
    | some e =>
      rw [render_eq_error_iff.2 hfault] at h
      cases h
  · intro h
    cases hrender : render template bindings with
    | ok text => exact ⟨text, rfl⟩
    | error e =>
      rw [render_eq_error_iff.1 hrender] at h
      cases h

/-! ## Checks -/

variable {allowed : List Variable}

theorem domain_standIns : domain (standIns allowed) = fun v => decide (v ∈ allowed) := by
  funext v
  unfold domain standIns
  split <;> simp [*]

/-- **The check finds the fault of every rendering in which the allowed variables have values.** -/
theorem check_eq_error_iff (h : domain bindings = fun v => decide (v ∈ allowed)) :
    check template allowed = .error e ↔ render template bindings = .error e := by
  rw [check, map_eq_error_iff, render_eq_error_iff, render_eq_error_iff, domain_standIns, h]

/-- **What passes the check is rendered whatever the values are.** -/
theorem check_eq_ok_iff (h : domain bindings = fun v => decide (v ∈ allowed)) :
    check template allowed = .ok () ↔ ∃ text, render template bindings = .ok text := by
  rw [check, map_eq_ok_iff]
  simp only [and_true]
  rw [exists_render_iff, exists_render_iff, domain_standIns, h]

end Template

/-! ## Prompts -/

namespace Prompts

variable {p : Problem} {index : Nat}

theorem domain_solverBindings (p : Problem) (l : Layout) :
    Template.domain (solverBindings p l) = fun v => decide (v ∈ solverVariables) := by
  funext v
  cases v <;> rfl

theorem domain_verifierBindings (p : Problem) (l : Layout) (pattern : String) :
    Template.domain (verifierBindings p l pattern) = fun v => decide (v ∈ verifierVariables) := by
  funext v
  cases v <;> rfl

theorem domain_checkerBindings (p : Problem) (pattern : String) (choice : Sequence) :
    Template.domain (checkerBindings p pattern choice)
      = fun v => decide (v ∈ checkerVariables) := by
  funext v
  cases v <;> rfl

/-- A choice that is shown has a prompt of its own, and no other index has one. -/
theorem checkerPrompt_of_lt (t : Prompts) (l : Layout) (pattern : String)
    (h : index < p.choiceCount) : ∃ choice, t.checkerPrompt p l pattern index
      = (Template.render t.checker (checkerBindings p pattern choice)).mapError .template := by
  rw [← Layout.length_choices l p] at h
  rw [checkerPrompt, List.getElem?_eq_getElem h]
  exact ⟨_, rfl⟩

theorem checkerPrompt_of_le (t : Prompts) (l : Layout) (pattern : String)
    (h : p.choiceCount ≤ index) :
    t.checkerPrompt p l pattern index = .error (.response (.unknownChoice index)) := by
  rw [← Layout.length_choices l p] at h
  rw [checkerPrompt, List.getElem?_eq_none h]

/-- The checker's prompt of a choice that is shown, written or not. -/
theorem check_checker_iff (t : Prompts) (l : Layout) (pattern : String)
    (h : index < p.choiceCount) :
    (Template.check t.checker checkerVariables = .ok () ↔
        ∃ text, t.checkerPrompt p l pattern index = .ok text) ∧
      ∀ e, Template.check t.checker checkerVariables = .error e →
        t.checkerPrompt p l pattern index = .error (.template e) := by
  obtain ⟨choice, hprompt⟩ := checkerPrompt_of_lt t l pattern h
  have hdomain := domain_checkerBindings p pattern choice
  rw [hprompt, Template.check_eq_ok_iff hdomain]
  refine ⟨exists_congr fun text => mapError_eq_ok_iff.symm, fun e he => ?_⟩
  rw [(Template.check_eq_error_iff hdomain).1 he]
  rfl

/-- **Checking the templates predicts the prompts.** A template passes the check if and only if
every prompt of its kind can be written, whatever the problem, the layout, the stated pattern and,
for the checker, the choice that is shown; if it does not pass, every such prompt fails in the same
way. An index of no choice is an error of the response. So settings that pass the check never leave
a prompt with an invalid template. -/
theorem check_predicts_prompts (t : Prompts) :
    (Template.check t.solver solverVariables = .ok () ↔
        ∀ p l, ∃ text, t.solverPrompt p l = .ok text) ∧
      (Template.check t.verifier verifierVariables = .ok () ↔
        ∀ p l pattern, ∃ text, t.verifierPrompt p l pattern = .ok text) ∧
      (Template.check t.checker checkerVariables = .ok () ↔
        ∀ p l pattern index, index < p.choiceCount →
          ∃ text, t.checkerPrompt p l pattern index = .ok text) ∧
      (∀ p l pattern index, p.choiceCount ≤ index →
        ∃ e, t.checkerPrompt p l pattern index = .error e ∧ e.diagnostic.kind = .responseInvalid) ∧
      (∀ e, e.diagnostic.kind = .templateInvalid ∧
        (Template.check t.solver solverVariables = .error e →
          ∀ p l, t.solverPrompt p l = .error e) ∧
        (Template.check t.verifier verifierVariables = .error e →
          ∀ p l pattern, t.verifierPrompt p l pattern = .error e) ∧
        (Template.check t.checker checkerVariables = .error e →
          ∀ p l pattern index, index < p.choiceCount →
            t.checkerPrompt p l pattern index = .error (.template e))) ∧
      ∀ s : Settings, s.prompts = t → s.check = .ok () → ∀ p l pattern,
        (∃ text, t.solverPrompt p l = .ok text) ∧
          (∃ text, t.verifierPrompt p l pattern = .ok text) ∧
          ∀ index e, t.checkerPrompt p l pattern index = .error e →
            e.diagnostic.kind ≠ .templateInvalid := by
  have hsolver : ∀ p l, Template.check t.solver solverVariables = .ok () ↔
      ∃ text, t.solverPrompt p l = .ok text :=
    fun p l => Template.check_eq_ok_iff (domain_solverBindings p l)
  have hverifier : ∀ p l pattern, Template.check t.verifier verifierVariables = .ok () ↔
      ∃ text, t.verifierPrompt p l pattern = .ok text :=
    fun p l pattern => Template.check_eq_ok_iff (domain_verifierBindings p l pattern)
  have hbeyond : ∀ p l pattern index, p.choiceCount ≤ index →
      ∃ e, t.checkerPrompt p l pattern index = .error e ∧ e.diagnostic.kind = .responseInvalid :=
    fun p l pattern index h => ⟨_, checkerPrompt_of_le t l pattern h, rfl⟩
  -- A problem without foils: its one choice has every prompt.
  let lone : Problem := ⟨"", 0, [], [], []⟩
  refine ⟨⟨fun h p l => (hsolver p l).1 h, fun h => (hsolver lone ⟨0⟩).2 (h lone ⟨0⟩)⟩,
    ⟨fun h p l pattern => (hverifier p l pattern).1 h,
      fun h => (hverifier lone ⟨0⟩ "").2 (h lone ⟨0⟩ "")⟩,
    ⟨fun h p l pattern index hlt => (check_checker_iff t l pattern hlt).1.1 h,
      fun h => (check_checker_iff t ⟨0⟩ "" Nat.one_pos).1.2 (h lone ⟨0⟩ "" 0 Nat.one_pos)⟩,
    hbeyond, fun e => ⟨rfl, ?_, ?_, ?_⟩, ?_⟩
  · exact fun h p l => (Template.check_eq_error_iff (domain_solverBindings p l)).1 h
  · exact fun h p l pattern =>
      (Template.check_eq_error_iff (domain_verifierBindings p l pattern)).1 h
  · exact fun h p l pattern index hlt => (check_checker_iff t l pattern hlt).2 e h
  · rintro s rfl hs p l pattern
    obtain ⟨h₁, h₂, h₃⟩ := Settings.check_templates_of_check hs
    refine ⟨(hsolver p l).1 h₁, (hverifier p l pattern).1 h₂, fun index e he => ?_⟩
    rcases Nat.lt_or_ge index p.choiceCount with hlt | hle
    · obtain ⟨text, htext⟩ := (check_checker_iff s.prompts l pattern hlt).1.1 h₃
      rw [htext] at he
      cases he
    · obtain ⟨e', he', hkind⟩ := hbeyond p l pattern index hle
      rw [he'] at he
      cases he
      rw [hkind]
      decide

/-- Braces within braces are part of a name, braces that are not closed are text, and the choices
are not for the checker. -/
theorem check_predicts_prompts_braces :
    let t : Prompts :=
      ⟨"\x7b\x7b\x7bEXAMPLES\x7d\x7d\x7d", "\x7b\x7b PATTERN\t\x7d\x7d\x7d \x7b\x7b",
        "\x7b\x7bCHOICES\x7d\x7d"⟩
    let s : Settings := { prompts := ⟨"", t.verifier, "\x7b\x7bCHOICE\x7d\x7d"⟩ }
    (Template.check t.solver solverVariables = .error (.notAllowed "\x7bEXAMPLES") ∧
        ∀ p l, t.solverPrompt p l = .error (.notAllowed "\x7bEXAMPLES")) ∧
      (Template.check t.verifier verifierVariables = .ok () ∧
        ∀ p l pattern, ∃ text, t.verifierPrompt p l pattern = .ok text) ∧
      (Template.check t.checker checkerVariables = .error (.notAvailable "CHOICES") ∧
        ∀ p l pattern,
          t.checkerPrompt p l pattern 0 = .error (.template (.notAvailable "CHOICES"))) ∧
      s.check = .ok () ∧ ∀ p l pattern, (∃ text, s.prompts.solverPrompt p l = .ok text) ∧
        (∃ text, s.prompts.checkerPrompt p l pattern 0 = .ok text) ∧
        ∃ e, s.prompts.checkerPrompt p l pattern p.choiceCount = .error e ∧
          e.diagnostic.kind = .responseInvalid := by
  intro t s
  have hsolver : Template.check t.solver solverVariables = .error (.notAllowed "\x7bEXAMPLES") := by
    decide +kernel
  have hverifier : Template.check t.verifier verifierVariables = .ok () := by decide +kernel
  have hchecker : Template.check t.checker checkerVariables = .error (.notAvailable "CHOICES") := by
    decide +kernel
  have hs : s.check = .ok () := by decide +kernel
  obtain ⟨-, hv, -, -, herror, -⟩ := check_predicts_prompts t
  obtain ⟨-, -, hc, hbeyond, -, hsettings⟩ := check_predicts_prompts s.prompts
  have hchecker' := (Settings.check_templates_of_check hs).2.2
  exact ⟨⟨hsolver, (herror _).2.1 hsolver⟩, ⟨hverifier, hv.1 hverifier⟩,
    ⟨hchecker, fun p l pattern => (herror _).2.2.2 hchecker p l pattern 0 (Nat.succ_pos _)⟩, hs,
    fun p l pattern => ⟨(hsettings s rfl hs p l pattern).1,
      hc.1 hchecker' p l pattern 0 (Nat.succ_pos _), hbeyond p l pattern _ (Nat.le_refl _)⟩⟩

end Prompts

end StackSeq
