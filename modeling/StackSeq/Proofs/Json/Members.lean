import StackSeq.Json.Decode

/-!
# Edited objects

A reader asks for the members of an object by their keys. So it does not matter to it in which order
they stand and what else the object holds: from an object that was edited in these ways it gets what
it got before, and defaults in place of the members that were taken out (`Edited.optional_eq`).

An array of the first values of an object is read like the object of its first members, which is an
edit of the whole (`read_firstItems`).
-/

namespace StackSeq.Json

variable {removed : List String} {edited : List (String × Json)} {key : String}
  {v before after : Json}

/-- `after` is the object `before` without its members with the keys `removed`, with others whose
keys `before` does not have, in any order. -/
def Edited (removed : List String) (before after : Json) : Prop :=
  ∃ members added edited, before = obj members ∧ after = obj edited ∧
    (∀ m ∈ added, m.1 ∉ members.map Prod.fst) ∧
    edited.Perm (members.filter (fun m => m.1 ∉ removed) ++ added)

/-- An object is an edit of itself. -/
theorem edited_self (members : List (String × Json)) : Edited [] (obj members) (obj members) := by
  refine ⟨members, [], members, rfl, rfl, List.forall_mem_nil _, ?_⟩
  have hall : members.filter (fun m => m.1 ∉ []) = members := List.filter_eq_self.2 (by simp)
  rw [hall, List.append_nil]

theorem Edited.exists_eq_obj (h : Edited removed before after) : ∃ edited, after = obj edited := by
  obtain ⟨-, -, edited, -, hafter, -⟩ := h
  exact ⟨edited, hafter⟩

/-- The object with this value for its members with the key. -/
def setMember (before : Json) (key : String) (v : Json) : Json :=
  match before with
  | obj members => obj (members.map fun m => if m.1 = key then (m.1, v) else m)
  | w => w

/-- The value is an object with one member of this key, whose value is `v`. -/
def HasMember (before : Json) (key : String) (v : Json) : Prop :=
  ∃ members, before = obj members ∧ members.filter (·.1 == key) = [(key, v)]

/-- Of a key that an object has once, an edit of the object has the same member or none. -/
theorem Edited.filter_eq (h : Edited removed before (obj edited))
    (hmember : before.HasMember key v) :
    edited.filter (·.1 == key) = if key ∈ removed then [] else [(key, v)] := by
  obtain ⟨members, added, edited, rfl, hafter, hadded, hperm⟩ := h
  obtain ⟨members, hbefore, hmember⟩ := hmember
  cases hbefore
  cases hafter
  have hkey : key ∈ members.map Prod.fst := by
    have hmem : (key, v) ∈ members.filter (·.1 == key) := hmember ▸ List.mem_singleton_self _
    exact List.mem_map_of_mem (List.mem_filter.1 hmem).1
  have hnone : added.filter (·.1 == key) = [] := by
    refine List.filter_eq_nil_iff.2 fun m hm heq => hadded m hm ?_
    rwa [beq_iff_eq.1 heq]
  have hkept : (members.filter fun m => m.1 ∉ removed).filter (·.1 == key)
      = if key ∈ removed then [] else [(key, v)] := by
    rw [List.filter_filter, ← hmember]
    split
    · next hremoved =>
      refine List.filter_eq_nil_iff.2 fun m _ hm => ?_
      rw [Bool.and_eq_true, beq_iff_eq, decide_eq_true_eq] at hm
      exact hm.2 (hm.1.symm ▸ hremoved)
    · next hremoved =>
      refine List.filter_congr fun m _ => ?_
      by_cases hm : m.1 = key
      · simp [hm, hremoved]
      · simp [hm]
  have hfilter := hperm.filter (·.1 == key)
  rw [List.filter_append, hnone, List.append_nil, hkept] at hfilter
  split at hfilter
  · next hremoved => rw [if_pos hremoved, hfilter.eq_nil]
  · next hremoved => rw [if_neg hremoved, hfilter.eq_singleton]

/-- **A member that was not taken out is read from an edit as from the object**, and one that was is
replaced by its default. -/
theorem Edited.optional_eq {α : Type} {a : α} (h : Edited removed before (obj edited))
    (key : String) (decode : Json → Option α) (default : α) (hmember : before.HasMember key v)
    (hv : decode v = some a) :
    optional key decode default edited = some (if key ∈ removed then default else a) := by
  rw [optional, member?, h.filter_eq hmember]
  by_cases hremoved : key ∈ removed
  · simp only [if_pos hremoved]
  · simp only [if_neg hremoved, hv]

/-! ## Arrays in place of objects -/

/-- The array of the first `count` values of an object. -/
def firstItems (before : Json) (count : Nat) : Json :=
  match before with
  | obj members => arr ((members.take count).map Prod.snd)
  | w => w

variable {members : List (String × Json)}

theorem zip_take (members : List (String × Json)) (count : Nat) :
    (members.map Prod.fst).zip ((members.take count).map Prod.snd) = members.take count := by
  induction members generalizing count with
  | nil => simp
  | cons m members ih =>
    cases count with
    | zero => rfl
    | succ count =>
      rw [List.take_succ_cons, List.map_cons, List.map_cons, List.zip_cons_cons, ih]

theorem fields?_firstItems (members : List (String × Json)) (count : Nat) :
    ((obj members).firstItems count).fields? (members.map Prod.fst)
      = (obj (members.take count)).fields? (members.map Prod.fst) := by
  have hfits : ((members.take count).map Prod.snd).length ≤ (members.map Prod.fst).length := by
    rw [List.length_map, List.length_map]
    exact List.length_take_le' count members
  rw [firstItems, fields?, if_pos hfits, zip_take, fields?_obj]

/-- The members behind the first ones were taken out of the object of these. -/
theorem edited_take (hkeys : (members.map Prod.fst).Nodup) (count : Nat) :
    Edited ((members.map Prod.fst).drop count) (obj members) (obj (members.take count)) := by
  have hnodup : ((members.take count).map Prod.fst ++ (members.drop count).map Prod.fst).Nodup := by
    rwa [← List.map_append, List.take_append_drop]
  obtain ⟨-, -, hdisjoint⟩ := List.nodup_append.1 hnodup
  have hkept : members.filter (fun m => m.1 ∉ (members.drop count).map Prod.fst)
      = members.take count := by
    conv => lhs; arg 2; rw [← List.take_append_drop count members]
    rw [List.filter_append, List.filter_eq_self.2, List.filter_eq_nil_iff.2, List.append_nil]
    · intro m hm
      rw [decide_eq_true_eq, Classical.not_not]
      exact List.mem_map_of_mem hm
    · intro m hm
      exact decide_eq_true fun hmem => hdisjoint m.1 (List.mem_map_of_mem hm) m.1 hmem rfl
  refine ⟨members, [], _, rfl, rfl, List.forall_mem_nil _, ?_⟩
  rw [← List.map_drop, hkept, List.append_nil]

/-- **An array of the first values is read like an edit of the object** by a reader that asks for
nothing but the fields. -/
theorem read_firstItems {α : Type} {read : Json → α} {a : α} {keys : List String}
    (hread : ∀ {v w : Json}, v.fields? keys = w.fields? keys → read v = read w)
    (hobject : ∃ members, before = obj members ∧ members.map Prod.fst = keys) (hkeys : keys.Nodup)
    (count : Nat)
    (hedit : ∀ {after : Json}, before.Edited (keys.drop count) after → read after = a) :
    read (before.firstItems count) = a := by
  obtain ⟨members, rfl, rfl⟩ := hobject
  rw [hread (fields?_firstItems members count)]
  exact hedit (edited_take hkeys count)

end StackSeq.Json
