import StackSeq.Proofs.Json.Scalar

/-!
# Reading what was written

A text `ReadsAs` a value if the reader gets the value from it with the fuel that its length
provides, and leaves what follows. Such texts are put together as values are: a scalar is one,
blanks in front of one change nothing, and brackets around several, with commas between them, make
an array. So both written forms read as their value, by induction on the value:
`readsAs_compactChars` and `readsAs_prettyChars`. Only half a surrogate pair has no written form
(`Paired`).
-/

namespace StackSeq.Json

variable {c : Char} {cs ds ws rest : List Char} {v : Json} {vs : List Json} {key : String}
  {members : List (String × Json)} {fuel : Nat}

/-! ## Texts of values -/

/-- Reading the text takes no more fuel than two for each character and leaves what follows. -/
def ReadsAs (cs : List Char) (v : Json) : Prop :=
  ∀ fuel rest, 2 * cs.length ≤ fuel → EndsNumber rest → readValue fuel (cs ++ rest) = some (v, rest)

/-- The same of the items of an array with its closing bracket. -/
def ItemsReadAs (cs : List Char) (vs : List Json) : Prop :=
  ∀ fuel rest, 2 * cs.length ≤ fuel → readItems fuel (cs ++ rest) = some (vs, rest)

/-- The same of the members of an object with its closing brace. -/
def MembersReadAs (cs : List Char) (members : List (String × Json)) : Prop :=
  ∀ fuel rest, 2 * cs.length ≤ fuel →
    readMembers fuel (cs ++ rest) = some (members.map fun m => (some m.1, m.2), rest)

/-! ## Blanks -/

theorem skipBlanks_cons_blank (h : isBlank c = true) (cs : List Char) :
    skipBlanks (c :: cs) = skipBlanks cs :=
  List.dropWhile_cons_of_pos h

theorem skipBlanks_cons (h : isBlank c = false) (cs : List Char) : skipBlanks (c :: cs) = c :: cs :=
  List.dropWhile_cons_of_neg (by simp [h])

theorem skipBlanks_append (h : ∀ c ∈ ws, isBlank c = true) (cs : List Char) :
    skipBlanks (ws ++ cs) = skipBlanks cs :=
  List.dropWhile_append_of_pos h

theorem skipBlanks_skipBlanks (cs : List Char) : skipBlanks (skipBlanks cs) = skipBlanks cs := by
  induction cs with
  | nil => rfl
  | cons c cs ih =>
    by_cases h : isBlank c = true
    · rw [skipBlanks_cons_blank h, ih]
    · have hc : isBlank c = false := by simpa using h
      rw [skipBlanks_cons hc, skipBlanks_cons hc]

/-- Every reader skips the blanks in front. -/
theorem readValue_congr (h : skipBlanks cs = skipBlanks ds) :
    readValue fuel cs = readValue fuel ds := by
  cases fuel with
  | zero => rw [readValue, readValue]
  | succ fuel => rw [readValue, readValue, h]

theorem readItems_congr (h : skipBlanks cs = skipBlanks ds) :
    readItems fuel cs = readItems fuel ds := by
  cases fuel with
  | zero => rw [readItems, readItems]
  | succ fuel => rw [readItems, readItems, readValue_congr h]

theorem readMembers_congr (h : skipBlanks cs = skipBlanks ds) :
    readMembers fuel cs = readMembers fuel ds := by
  cases fuel with
  | zero => rw [readMembers, readMembers]
  | succ fuel => rw [readMembers, readMembers, h]

theorem ReadsAs.append_blanks (h : ReadsAs cs v) (hws : ∀ c ∈ ws, isBlank c = true) :
    ReadsAs (ws ++ cs) v := by
  intro fuel rest hfuel hrest
  rw [List.length_append] at hfuel
  rw [List.append_assoc, readValue_congr (skipBlanks_append hws _)]
  exact h fuel rest (by omega) hrest

theorem MembersReadAs.append_blanks (h : MembersReadAs cs members)
    (hws : ∀ c ∈ ws, isBlank c = true) : MembersReadAs (ws ++ cs) members := by
  intro fuel rest hfuel
  rw [List.length_append] at hfuel
  rw [List.append_assoc, readMembers_congr (skipBlanks_append hws _)]
  exact h fuel rest (by omega)

/-- What follows a number with blanks in front still does. -/
theorem endsNumber_append_blanks (hws : ∀ c ∈ ws, isBlank c = true) (h : EndsNumber cs) :
    EndsNumber (ws ++ cs) := by
  cases ws with
  | nil => exact h
  | cons c ws =>
    rintro d ⟨⟩
    have hc := hws c List.mem_cons_self
    simp only [isBlank, Bool.or_eq_true, beq_iff_eq] at hc
    rcases hc with ((rfl | rfl) | rfl) | rfl <;> decide

/-! ## Scalars -/

/-- No blank, bracket or brace is in front of a scalar. -/
theorem readsAs_scalar (hc : isBlank c = false) (harr : c ≠ '[') (hobj : c ≠ '\x7b')
    (h : ∀ rest, EndsNumber rest → readScalar (c :: cs ++ rest) = some (v, rest)) :
    ReadsAs (c :: cs) v := by
  intro fuel rest hfuel hrest
  rw [List.length_cons] at hfuel
  obtain ⟨fuel, rfl⟩ : ∃ m, fuel = m + 1 := ⟨fuel - 1, by omega⟩
  rw [readValue, List.cons_append, skipBlanks_cons hc, ← List.cons_append]
  split
  · next heq => exact absurd (List.cons.inj heq).1 harr
  · next heq => exact absurd (List.cons.inj heq).1 hobj
  · exact h rest hrest

theorem readScalar_of_isDigit_or_eq_minus (hc : c.isDigit = true ∨ c = '-') :
    readScalar (c :: cs) = readNumber (c :: cs) := by
  have hne : ∀ d : Char, d.isDigit = false → d ≠ '-' → c ≠ d := fun d =>
    Text.ne_of_isDigit_or_eq_minus hc
  unfold readScalar
  split
  · next heq => exact absurd (List.cons.inj heq).1 (hne _ (by decide) (by decide))
  · next heq => exact absurd (List.cons.inj heq).1 (hne _ (by decide) (by decide))
  · next heq => exact absurd (List.cons.inj heq).1 (hne _ (by decide) (by decide))
  · next heq => exact absurd (List.cons.inj heq).1 (hne _ (by decide) (by decide))
  · rfl

/-- What starts as the text of an integer is read as a number. -/
theorem readsAs_of_readNumber (n : Int)
    (h : ∀ rest, EndsNumber rest →
      readNumber ((toString n).toList ++ cs ++ rest) = some (v, rest)) :
    ReadsAs ((toString n).toList ++ cs) v := by
  obtain ⟨c, ds, htext⟩ : ∃ c ds, (toString n).toList = c :: ds := by
    obtain ⟨c, hc, -⟩ := Text.exists_isDigit_mem_toString n
    exact List.exists_cons_of_ne_nil (List.ne_nil_of_mem hc)
  have hc : c.isDigit = true ∨ c = '-' :=
    Text.isDigit_or_eq_minus_of_mem_toString (htext ▸ List.mem_cons_self)
  have hne : ∀ d : Char, d.isDigit = false → d ≠ '-' → c ≠ d := fun d =>
    Text.ne_of_isDigit_or_eq_minus hc
  rw [htext] at h ⊢
  refine readsAs_scalar ?_ (hne _ (by decide) (by decide)) (hne _ (by decide) (by decide))
    fun rest hrest => ?_
  · simp [isBlank, hne]
  · rw [List.cons_append, readScalar_of_isDigit_or_eq_minus hc]
    exact h rest hrest

theorem readsAs_int (n : Int) : ReadsAs (toString n).toList (.int n) := by
  rw [← List.append_nil (toString n).toList]
  refine readsAs_of_readNumber n fun rest hrest => ?_
  rw [List.append_nil]
  exact readNumber_int n hrest

theorem readsAs_decimal (mantissa exponent : Int) :
    ReadsAs (toString mantissa ++ "e" ++ toString exponent).toList
      (.decimal mantissa exponent) := by
  rw [String.append_assoc, String.toList_append]
  refine readsAs_of_readNumber mantissa fun rest hrest => ?_
  rw [← String.toList_append, ← String.append_assoc]
  exact readNumber_decimal mantissa exponent hrest

theorem readsAs_quote (s : String) : ReadsAs (quote s) (.str s) := by
  refine readsAs_scalar (by decide) (by decide) (by decide) fun rest _ => ?_
  have hread : readString (s.toList.flatMap escapeChar ++ '\x22' :: rest) = some (some s, rest) :=
    readString_quote s
  rw [List.cons_append, List.append_assoc, List.singleton_append, readScalar, hread]
  rfl

/-! ## Arrays -/

/-- A closing bracket starts no item. -/
theorem readItems_closing (fuel : Nat) (cs : List Char) : readItems fuel (']' :: cs) = none := by
  cases fuel with
  | zero => rw [readItems]
  | succ fuel =>
    have hvalue : readValue fuel (']' :: cs) = none := by
      cases fuel with
      | zero => rw [readValue]
      | succ fuel =>
        rw [readValue]
        rfl
    rw [readItems, hvalue]

theorem readsAs_arr_nil : ReadsAs ['[', ']'] (.arr []) := by
  intro fuel rest hfuel _
  obtain ⟨fuel, rfl⟩ : ∃ m, fuel = m + 1 := ⟨fuel - 1, by simp at hfuel; omega⟩
  rw [readValue]
  rfl

theorem readsAs_arr (h : ItemsReadAs cs vs) : ReadsAs ('[' :: cs) (.arr vs) := by
  intro fuel rest hfuel _
  rw [List.length_cons] at hfuel
  obtain ⟨fuel, rfl⟩ : ∃ m, fuel = m + 1 := ⟨fuel - 1, by omega⟩
  have hitems := h fuel rest (by omega)
  rw [readValue, List.cons_append, skipBlanks_cons (by decide)]
  simp only
  split
  · next ds heq =>
    have hskip : skipBlanks (cs ++ rest) = skipBlanks (']' :: ds) := by
      rw [← heq, skipBlanks_skipBlanks]
    rw [readItems_congr hskip, readItems_closing] at hitems
    cases hitems
  · rw [readItems_congr (skipBlanks_skipBlanks _), hitems]
    rfl

/-- The last item, with blanks in front of the closing bracket. -/
theorem itemsReadAs_singleton (h : ReadsAs cs v) (hws : ∀ c ∈ ws, isBlank c = true) :
    ItemsReadAs (cs ++ (ws ++ [']'])) [v] := by
  intro fuel rest hfuel
  simp only [List.length_append, List.length_singleton] at hfuel
  obtain ⟨fuel, rfl⟩ : ∃ m, fuel = m + 1 := ⟨fuel - 1, by omega⟩
  have hends : EndsNumber (']' :: rest) := endsNumber_cons (by decide) _
  have hvalue := h fuel (ws ++ ']' :: rest) (by omega) (endsNumber_append_blanks hws hends)
  rw [List.append_assoc, List.append_assoc, List.singleton_append, readItems, hvalue]
  dsimp only
  rw [skipBlanks_append hws, skipBlanks_cons (by decide)]
  rfl

theorem ItemsReadAs.cons (h : ItemsReadAs ds vs) (hv : ReadsAs cs v) :
    ItemsReadAs (cs ++ ',' :: ds) (v :: vs) := by
  intro fuel rest hfuel
  simp only [List.length_append, List.length_cons] at hfuel
  obtain ⟨fuel, rfl⟩ : ∃ m, fuel = m + 1 := ⟨fuel - 1, by omega⟩
  have hends : EndsNumber (',' :: (ds ++ rest)) := endsNumber_cons (by decide) _
  have hvalue := hv fuel (',' :: (ds ++ rest)) (by omega) hends
  rw [List.append_assoc, List.cons_append, readItems, hvalue]
  dsimp only
  rw [skipBlanks_cons (by decide)]
  show (readItems fuel (ds ++ rest)).map (fun p => (v :: p.1, p.2)) = _
  rw [h fuel rest (by omega)]
  rfl

/-! ## Objects -/

theorem ofMembers_map (members : List (String × Json)) :
    ofMembers (members.map fun m => (some m.1, m.2)) = .obj members := by
  have hnamed : namedMembers? (members.map fun m => (some m.1, m.2)) = some members := by
    induction members with
    | nil => rfl
    | cons m members ih =>
      rw [List.map_cons, namedMembers?, ih]
      rfl
  rw [ofMembers, hnamed]
  rfl

/-- A closing brace starts no member. -/
theorem readMembers_closing (fuel : Nat) (cs : List Char) :
    readMembers fuel ('\x7d' :: cs) = none := by
  cases fuel with
  | zero => rw [readMembers]
  | succ fuel =>
    rw [readMembers]
    rfl

theorem readsAs_obj_nil : ReadsAs ['\x7b', '\x7d'] (.obj []) := by
  intro fuel rest hfuel _
  obtain ⟨fuel, rfl⟩ : ∃ m, fuel = m + 1 := ⟨fuel - 1, by simp at hfuel; omega⟩
  rw [readValue]
  rfl

theorem readsAs_obj (h : MembersReadAs cs members) : ReadsAs ('\x7b' :: cs) (.obj members) := by
  intro fuel rest hfuel _
  rw [List.length_cons] at hfuel
  obtain ⟨fuel, rfl⟩ : ∃ m, fuel = m + 1 := ⟨fuel - 1, by omega⟩
  have hmembers := h fuel rest (by omega)
  rw [readValue, List.cons_append, skipBlanks_cons (by decide)]
  simp only
  split
  · next ds heq =>
    have hskip : skipBlanks (cs ++ rest) = skipBlanks ('\x7d' :: ds) := by
      rw [← heq, skipBlanks_skipBlanks]
    rw [readMembers_congr hskip, readMembers_closing] at hmembers
    cases hmembers
  · rw [readMembers_congr (skipBlanks_skipBlanks _), hmembers, Option.map_some]
    exact congrArg (fun v => some (v, rest)) (ofMembers_map members)

/-- A member is read, and then what the character after it asks for. -/
theorem readMembers_quote (h : readValue fuel cs = some (v, rest)) :
    (∀ ds, skipBlanks rest = ',' :: ds → readMembers (fuel + 1) (quote key ++ ':' :: cs)
      = (readMembers fuel ds).map fun p => ((some key, v) :: p.1, p.2)) ∧
    (∀ ds, skipBlanks rest = '\x7d' :: ds → readMembers (fuel + 1) (quote key ++ ':' :: cs)
      = some ([(some key, v)], ds)) := by
  have hread : readString (key.toList.flatMap escapeChar ++ '\x22' :: ':' :: cs)
      = some (some key, ':' :: cs) := readString_quote key
  have hcolon : skipBlanks (':' :: cs) = ':' :: cs := skipBlanks_cons (by decide) cs
  rw [quote, List.cons_append, List.append_assoc, List.singleton_append, readMembers,
    skipBlanks_cons (by decide)]
  refine ⟨fun ds hds => ?_, fun ds hds => ?_⟩
  · simp only [hread, hcolon, h, hds]
  · simp only [hread, hcolon, h, hds]

/-- The last member, with blanks in front of the closing brace. -/
theorem membersReadAs_singleton (key : String) (h : ReadsAs cs v)
    (hws : ∀ c ∈ ws, isBlank c = true) :
    MembersReadAs (quote key ++ ':' :: (cs ++ (ws ++ ['\x7d']))) [(key, v)] := by
  intro fuel rest hfuel
  simp only [List.length_append, List.length_cons, List.length_nil] at hfuel
  obtain ⟨fuel, rfl⟩ : ∃ m, fuel = m + 1 := ⟨fuel - 1, by omega⟩
  have hends : EndsNumber ('\x7d' :: rest) := endsNumber_cons (by decide) _
  have hvalue := h fuel (ws ++ '\x7d' :: rest) (by omega) (endsNumber_append_blanks hws hends)
  simp only [List.append_assoc, List.cons_append, List.nil_append]
  refine (readMembers_quote hvalue).2 rest ?_
  rw [skipBlanks_append hws, skipBlanks_cons (by decide)]

theorem MembersReadAs.cons (h : MembersReadAs ds members) (key : String) (hv : ReadsAs cs v) :
    MembersReadAs (quote key ++ ':' :: (cs ++ ',' :: ds)) ((key, v) :: members) := by
  intro fuel rest hfuel
  simp only [List.length_append, List.length_cons] at hfuel
  obtain ⟨fuel, rfl⟩ : ∃ m, fuel = m + 1 := ⟨fuel - 1, by omega⟩
  have hends : EndsNumber (',' :: (ds ++ rest)) := endsNumber_cons (by decide) _
  have hvalue := hv fuel (',' :: (ds ++ rest)) (by omega) hends
  simp only [List.append_assoc, List.cons_append]
  rw [(readMembers_quote hvalue).1 (ds ++ rest) (skipBlanks_cons (by decide) _),
    h fuel rest (by omega)]
  rfl

/-! ## Written forms -/

/-- Every half of a surrogate pair in the value has its other half. -/
inductive Paired : Json → Prop where
  | null : Paired null
  | bool (b : Bool) : Paired (bool b)
  | int (n : Int) : Paired (int n)
  | decimal (mantissa exponent : Int) : Paired (decimal mantissa exponent)
  | str (s : String) : Paired (str s)
  | arr {items : List Json} (h : ∀ v ∈ items, Paired v) : Paired (arr items)
  | obj {members : List (String × Json)} (h : ∀ m ∈ members, Paired m.2) : Paired (obj members)

theorem readsAs_true : ReadsAs "true".toList (.bool true) :=
  readsAs_scalar (by decide) (by decide) (by decide) fun _ _ => rfl

theorem readsAs_false : ReadsAs "false".toList (.bool false) :=
  readsAs_scalar (by decide) (by decide) (by decide) fun _ _ => rfl

theorem readsAs_null : ReadsAs "null".toList .null :=
  readsAs_scalar (by decide) (by decide) (by decide) fun _ _ => rfl

theorem itemsReadAs_compactItems (hne : vs ≠ []) (h : ∀ v ∈ vs, ReadsAs v.compactChars v) :
    ItemsReadAs (compactItems vs ++ [']']) vs := by
  induction vs with
  | nil => exact absurd rfl hne
  | cons v vs ih =>
    rw [List.forall_mem_cons] at h
    cases vs with
    | nil => exact itemsReadAs_singleton h.1 (List.forall_mem_nil _)
    | cons w vs =>
      rw [compactItems, List.append_assoc, List.cons_append]
      exact (ih (List.cons_ne_nil w vs) h.2).cons h.1

theorem membersReadAs_compactMembers (hne : members ≠ [])
    (h : ∀ m ∈ members, ReadsAs m.2.compactChars m.2) :
    MembersReadAs (compactMembers members ++ ['\x7d']) members := by
  induction members with
  | nil => exact absurd rfl hne
  | cons m members ih =>
    obtain ⟨key, v⟩ := m
    rw [List.forall_mem_cons] at h
    cases members with
    | nil =>
      have hlast :
          MembersReadAs (quote key ++ ':' :: (v.compactChars ++ ([] ++ ['\x7d']))) [(key, v)] :=
        membersReadAs_singleton key h.1 (List.forall_mem_nil _)
      rw [compactMembers, List.append_assoc, List.cons_append]
      exact hlast
    | cons m members =>
      rw [compactMembers, List.append_assoc, List.cons_append, List.append_assoc, List.cons_append]
      exact (ih (List.cons_ne_nil m members) h.2).cons key h.1

/-- **The compact form of a value reads as the value.** -/
theorem readsAs_compactChars (h : v.Paired) : ReadsAs v.compactChars v := by
  induction h with
  | null => exact readsAs_null
  | bool b => cases b with
    | true => exact readsAs_true
    | false => exact readsAs_false
  | int n => exact readsAs_int n
  | decimal mantissa exponent => exact readsAs_decimal mantissa exponent
  | str s => exact readsAs_quote s
  | @arr items _ ih =>
    rw [compactChars]
    by_cases hne : items = []
    · rw [hne, compactItems]
      exact readsAs_arr_nil
    · exact readsAs_arr (itemsReadAs_compactItems hne ih)
  | @obj members _ ih =>
    rw [compactChars]
    by_cases hne : members = []
    · rw [hne, compactMembers]
      exact readsAs_obj_nil
    · exact readsAs_obj (membersReadAs_compactMembers hne ih)

theorem isBlank_of_mem_indent (depth : Nat) : ∀ c ∈ indent depth, isBlank c = true := by
  intro c hc
  rcases List.mem_cons.1 hc with rfl | hc
  · decide
  · rw [List.eq_of_mem_replicate hc]
    decide

theorem itemsReadAs_prettyItems {depth : Nat} (outer : Nat) (hne : vs ≠ [])
    (h : ∀ v ∈ vs, ReadsAs (v.prettyChars depth) v) :
    ItemsReadAs (prettyItems depth vs ++ (indent outer ++ [']'])) vs := by
  induction vs with
  | nil => exact absurd rfl hne
  | cons v vs ih =>
    rw [List.forall_mem_cons] at h
    have hv : ReadsAs (indent depth ++ v.prettyChars depth) v :=
      h.1.append_blanks (isBlank_of_mem_indent depth)
    cases vs with
    | nil => exact itemsReadAs_singleton hv (isBlank_of_mem_indent outer)
    | cons w vs =>
      rw [prettyItems, List.append_assoc, List.cons_append]
      exact (ih (List.cons_ne_nil w vs) h.2).cons hv

theorem membersReadAs_prettyMembers {depth : Nat} (outer : Nat) (hne : members ≠ [])
    (h : ∀ m ∈ members, ReadsAs (m.2.prettyChars depth) m.2) :
    MembersReadAs (prettyMembers depth members ++ (indent outer ++ ['\x7d'])) members := by
  induction members with
  | nil => exact absurd rfl hne
  | cons m members ih =>
    obtain ⟨key, v⟩ := m
    rw [List.forall_mem_cons] at h
    have hv : ReadsAs ([' '] ++ v.prettyChars depth) v :=
      h.1.append_blanks (List.forall_mem_singleton.2 (by decide))
    rw [List.singleton_append] at hv
    cases members with
    | nil =>
      have hlast := membersReadAs_singleton key hv (isBlank_of_mem_indent outer)
      rw [prettyMembers, List.append_assoc, List.append_assoc, List.cons_append]
      exact hlast.append_blanks (isBlank_of_mem_indent depth)
    | cons m members =>
      have hnext := ((ih (List.cons_ne_nil m members) h.2).cons key hv).append_blanks
        (isBlank_of_mem_indent depth)
      rw [prettyMembers]
      simpa only [List.append_assoc, List.cons_append] using hnext

/-- **The pretty form of a value reads as the value**, at any depth of nesting. -/
theorem readsAs_prettyChars (h : v.Paired) (depth : Nat) : ReadsAs (v.prettyChars depth) v := by
  induction h generalizing depth with
  | null => exact readsAs_null
  | bool b => cases b with
    | true => exact readsAs_true
    | false => exact readsAs_false
  | int n => exact readsAs_int n
  | decimal mantissa exponent => exact readsAs_decimal mantissa exponent
  | str s => exact readsAs_quote s
  | @arr items _ ih =>
    cases items with
    | nil => exact readsAs_arr_nil
    | cons v items =>
      rw [prettyChars, List.append_assoc]
      exact readsAs_arr (itemsReadAs_prettyItems depth (List.cons_ne_nil v items)
        fun v hv => ih v hv (depth + 1))
  | @obj members _ ih =>
    cases members with
    | nil => exact readsAs_obj_nil
    | cons m members =>
      rw [prettyChars, List.append_assoc]
      exact readsAs_obj (membersReadAs_prettyMembers depth (List.cons_ne_nil m members)
        fun m hm => ih m hm (depth + 1))

/-! ## Whole texts -/

theorem parseChars?_of_readsAs (h : ReadsAs cs v) : parseChars? cs = some v := by
  have hread := h (2 * cs.length + 1) [] (Nat.le_succ _) endsNumber_nil
  rw [List.append_nil] at hread
  rw [parseChars?, hread]
  rfl

/-- **What is written in either form is read as the value that was written.** -/
theorem parse?_compact (h : v.Paired) : parse? v.compact = some v := by
  rw [parse?, compact, String.toList_ofList]
  exact parseChars?_of_readsAs (readsAs_compactChars h)

theorem parse?_pretty (h : v.Paired) : parse? v.pretty = some v := by
  rw [parse?, pretty, String.toList_ofList]
  exact parseChars?_of_readsAs (readsAs_prettyChars h 0)

end StackSeq.Json
