/-!
# Checks

A check says of a value that nothing is wrong with it, or what is wrong first. Checks in a row stop
at the first failure, so their order decides which of two faults is reported; `require_eq_ok_iff`,
`bind_eq_ok_iff` and `requireAll_eq_ok_iff` say that nothing but the faults themselves decides
whether one is, and `mapM_eq_error_iff` which one of a list it is. A row of answers that may be
missing is taken apart by `mapM_eq_some_iff`.
-/

namespace StackSeq

/-- Fails with `fault` unless the condition holds. -/
def require {ε : Type} (condition : Bool) (fault : ε) : Except ε Unit :=
  if condition then .ok () else .error fault

@[simp] theorem require_eq_ok_iff {ε : Type} {condition : Bool} {fault : ε} :
    require condition fault = .ok () ↔ condition = true := by
  cases condition <;> simp [require]

/-- Checks in a row succeed if both do. -/
theorem bind_eq_ok_iff {ε α β : Type} {check : Except ε α} {next : α → Except ε β} {b : β} :
    (check >>= next) = .ok b ↔ ∃ a, check = .ok a ∧ next a = .ok b := by
  cases check with
  | error fault => simp [bind, Except.bind]
  | ok a => simp [bind, Except.bind]

/-- Checks in a row fail at the first one that does. -/
theorem bind_eq_error_iff {ε α β : Type} {check : Except ε α} {next : α → Except ε β} {fault : ε} :
    (check >>= next) = .error fault ↔
      check = .error fault ∨ ∃ a, check = .ok a ∧ next a = .error fault := by
  cases check with
  | error fault' => simp [bind, Except.bind]
  | ok a => simp [bind, Except.bind]

theorem check_bind_eq_ok_iff {ε β : Type} {check : Except ε Unit} {next : Except ε β} {b : β} :
    (check >>= fun _ => next) = .ok b ↔ check = .ok () ∧ next = .ok b :=
  bind_eq_ok_iff.trans ⟨fun ⟨(), h⟩ => h, fun h => ⟨(), h⟩⟩

theorem map_eq_ok_iff {ε α β : Type} {check : Except ε α} {f : α → β} {b : β} :
    check.map f = .ok b ↔ ∃ a, check = .ok a ∧ f a = b := by
  cases check <;> simp [Except.map]

theorem map_eq_error_iff {ε α β : Type} {check : Except ε α} {f : α → β} {fault : ε} :
    check.map f = .error fault ↔ check = .error fault := by
  cases check <;> simp [Except.map]

/-- Naming a fault differently does not make it one. -/
@[simp] theorem mapError_eq_ok_iff {ε δ α : Type} {check : Except ε α} {name : ε → δ} {a : α} :
    check.mapError name = .ok a ↔ check = .ok a := by
  cases check with
  | error fault => exact ⟨nofun, nofun⟩
  | ok b =>
    constructor
    · rintro ⟨⟩
      rfl
    · rintro ⟨⟩
      rfl

theorem require_eq_mapError {ε δ : Type} {condition : Bool} {fault : ε} (name : ε → δ) :
    require condition (name fault) = (require condition fault).mapError name := by
  cases condition <;> rfl

/-- Checks in a row that name their faults differently name that of the row differently. What
follows the first check has to do so only where that has succeeded. -/
theorem bind_eq_mapError {ε δ α β : Type} {check : Except ε α} {check' : Except δ α}
    {next : α → Except ε β} {next' : α → Except δ β} {name : ε → δ}
    (h : check' = check.mapError name)
    (hnext : ∀ a, check = .ok a → next' a = (next a).mapError name) :
    (check' >>= next') = (check >>= next).mapError name := by
  rw [h]
  cases check with
  | error fault => rfl
  | ok a => exact hnext a rfl

/-- A row of results fails with the fault of the first member that has none. -/
theorem mapM_eq_error_iff {ε α β : Type} {f : α → Except ε β} {as : List α} {fault : ε} :
    as.mapM f = .error fault ↔ ∃ before a after, as = before ++ a :: after ∧
      (∀ b ∈ before, ∃ result, f b = .ok result) ∧ f a = .error fault := by
  induction as with
  | nil => simp [pure, Except.pure]
  | cons a rest ih =>
    have hpure : ∀ result,
        (rest.mapM f >>= fun results => pure (result :: results)) = .error fault ↔
          rest.mapM f = .error fault := fun result => by
      rw [bind_eq_error_iff]
      exact or_iff_left fun ⟨_, _, hcons⟩ => nomatch hcons
    simp only [List.mapM_cons, bind_eq_error_iff, hpure, ih]
    constructor
    · rintro (ha | ⟨result, ha, before, b, after, rfl, hbefore, hb⟩)
      · exact ⟨[], a, rest, rfl, List.forall_mem_nil _, ha⟩
      · exact ⟨a :: before, b, after, rfl, List.forall_mem_cons.2 ⟨⟨result, ha⟩, hbefore⟩, hb⟩
    · rintro ⟨before, b, after, heq, hbefore, hb⟩
      cases before with
      | nil =>
        obtain ⟨rfl, -⟩ := List.cons.inj heq
        exact .inl hb
      | cons c before =>
        obtain ⟨rfl, rfl⟩ := List.cons.inj heq
        obtain ⟨⟨result, ha⟩, hbefore⟩ := List.forall_mem_cons.1 hbefore
        exact .inr ⟨result, ha, before, b, after, rfl, hbefore, hb⟩

/-- A row of answers has one if every member has its own. -/
theorem mapM_eq_some_iff {α β : Type} {f : α → Option β} {as : List α} {bs : List β} :
    as.mapM f = some bs ↔ bs.map some = as.map f := by
  induction as generalizing bs with
  | nil =>
    rw [List.mapM_nil, List.map_nil, List.map_eq_nil_iff, Option.pure_def, Option.some.injEq,
      eq_comm]
  | cons a as ih =>
    simp only [List.mapM_cons, Option.bind_eq_bind, Option.pure_def, Option.bind_eq_some_iff, ih,
      Option.some.injEq, List.map_cons]
    constructor
    · rintro ⟨b, hb, bs, hbs, rfl⟩
      rw [List.map_cons, hb, hbs]
    · intro h
      obtain ⟨b, bs, rfl, hb, hbs⟩ := List.map_eq_cons_iff.1 h
      exact ⟨b, hb.symm, bs, hbs, rfl⟩

/-- The first failure of a check on the members of a list, if one fails. -/
def requireAll {α ε : Type} (check : α → Except ε Unit) : List α → Except ε Unit
  | [] => .ok ()
  | a :: rest =>
    match check a with
    | .ok () => requireAll check rest
    | .error fault => .error fault

theorem requireAll_eq_ok_iff {α ε : Type} {check : α → Except ε Unit} {as : List α} :
    requireAll check as = .ok () ↔ ∀ a ∈ as, check a = .ok () := by
  induction as with
  | nil => simp [requireAll]
  | cons a rest ih =>
    rw [requireAll]
    cases h : check a <;> simp [h, ih]

/-- Checks of the members that name their faults differently name that of the list differently. -/
theorem requireAll_eq_mapError {α ε δ : Type} {check : α → Except ε Unit}
    {check' : α → Except δ Unit} {name : ε → δ} {as : List α}
    (h : ∀ a ∈ as, check' a = (check a).mapError name) :
    requireAll check' as = (requireAll check as).mapError name := by
  induction as with
  | nil => rfl
  | cons a rest ih =>
    rw [List.forall_mem_cons] at h
    rw [requireAll, requireAll, h.1, ih h.2]
    cases check a <;> rfl

/-- One fault for all members is the fault of the list. -/
theorem requireAll_require {α ε : Type} (condition : α → Bool) (fault : ε) (as : List α) :
    requireAll (fun a => require (condition a) fault) as = require (as.all condition) fault := by
  induction as with
  | nil => rfl
  | cons a rest ih =>
    rw [requireAll, ih, List.all_cons]
    cases condition a <;> rfl

end StackSeq
