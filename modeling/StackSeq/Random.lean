/-!
# Random numbers

A reproducible source of random numbers: the key stream of the ChaCha cipher with twelve rounds,
a 64-bit block counter and a zero nonce, under a key of eight words that a 64-bit seed expands to.

`below` draws a number below a bound without bias: the high half of a word times the bound, where
words are redrawn whose low half falls past the last full copy of the bound. More than half of all
words are taken, so the limit on redraws is a formality; it keeps the function total, and
`below_lt` holds in any case. `shuffle` exchanges each place, from the last to the second, with a
random one up to it.
-/

namespace StackSeq

/-! ## Blocks of the key stream -/

/-- Four of the sixteen words of a block. -/
structure WordRow where
  a : UInt32
  b : UInt32
  c : UInt32
  d : UInt32

namespace WordRow

/-- The row of the results of an operation, place by place. -/
def zipWith (f : UInt32 → UInt32 → UInt32) (p q : WordRow) : WordRow :=
  ⟨f p.a q.a, f p.b q.b, f p.c q.c, f p.d q.d⟩

/-- The places moved to the left by one, the first to the end. -/
def cycle (p : WordRow) : WordRow := ⟨p.b, p.c, p.d, p.a⟩

def toList (p : WordRow) : List UInt32 := [p.a, p.b, p.c, p.d]

end WordRow

/-- The word with its bits moved to the left by `n` places, those that fall out to the right end. -/
def rotateLeft (n x : UInt32) : UInt32 := (x <<< n) ||| (x >>> (32 - n))

/-- The sixteen words of a block, row by row. -/
structure WordBlock where
  first : WordRow
  second : WordRow
  third : WordRow
  fourth : WordRow

namespace WordBlock

/-- Exclusive or, then a rotation. -/
def mix (n : UInt32) (p q : WordRow) : WordRow :=
  p.zipWith (fun x y => rotateLeft n (x ^^^ y)) q

/-- Four quarter rounds, one down each column. -/
def columnRound (s : WordBlock) : WordBlock :=
  let a := s.first.zipWith (· + ·) s.second
  let d := mix 16 s.fourth a
  let c := s.third.zipWith (· + ·) d
  let b := mix 12 s.second c
  let a := a.zipWith (· + ·) b
  let d := mix 8 d a
  let c := c.zipWith (· + ·) d
  let b := mix 7 b c
  ⟨a, b, c, d⟩

/-- Four quarter rounds along the columns and four along the diagonals. -/
def doubleRound (s : WordBlock) : WordBlock :=
  let s := s.columnRound
  let s := columnRound ⟨s.first, s.second.cycle, s.third.cycle.cycle, s.fourth.cycle.cycle.cycle⟩
  ⟨s.first, s.second.cycle.cycle.cycle, s.third.cycle.cycle, s.fourth.cycle⟩

/-- The words of a block after twelve rounds, added to those before them. -/
def keyStream (s : WordBlock) : List UInt32 :=
  let t := s.doubleRound.doubleRound.doubleRound.doubleRound.doubleRound.doubleRound
  (s.first.zipWith (· + ·) t.first).toList ++ (s.second.zipWith (· + ·) t.second).toList
    ++ (s.third.zipWith (· + ·) t.third).toList ++ (s.fourth.zipWith (· + ·) t.fourth).toList

end WordBlock

/-! ## The source -/

/-- A source of random words. -/
structure Random where
  /-- The key: the middle rows of every block. -/
  key : WordRow × WordRow
  /-- The number of the next block. -/
  counter : UInt64
  /-- The words of the current block that were not drawn yet. -/
  pending : List UInt32

namespace Random

/-- The words of the block with this number. -/
def block (key : WordRow × WordRow) (counter : UInt64) : List UInt32 :=
  WordBlock.keyStream
    { first := ⟨0x61707865, 0x3320646e, 0x79622d32, 0x6b206574⟩
      second := key.1
      third := key.2
      fourth := ⟨counter.toUInt32, (counter >>> 32).toUInt32, 0, 0⟩ }

/-- The next state in the expansion of a seed. -/
def nextSeed (state : UInt64) : UInt64 :=
  state * 6364136223846793005 + 11634580027462260723

/-- The word of a key that a state in the expansion of a seed stands for. -/
def keyWord (state : UInt64) : UInt32 :=
  let x := (((state >>> 18) ^^^ state) >>> 27).toUInt32
  let n := (state >>> 59).toUInt32
  (x >>> n) ||| (x <<< (32 - n))

/-- Four words of a key and the state after them. -/
def keyRow (state : UInt64) : WordRow × UInt64 :=
  let s₁ := nextSeed state
  let s₂ := nextSeed s₁
  let s₃ := nextSeed s₂
  let s₄ := nextSeed s₃
  (⟨keyWord s₁, keyWord s₂, keyWord s₃, keyWord s₄⟩, s₄)

/-- The source with this seed. -/
def ofSeed (seed : UInt64) : Random :=
  let (first, state) := keyRow seed
  let (second, _) := keyRow state
  { key := (first, second), counter := 0, pending := [] }

/-- The next word, and the source after it. -/
def word (r : Random) : UInt32 × Random :=
  match r.pending with
  | w :: pending => (w, { r with pending })
  | [] =>
    let words := block r.key r.counter
    (words.headD 0, { r with counter := r.counter + 1, pending := words.tail })

/-- The next number of 32 bits. -/
def draw32 (r : Random) : Nat × Random :=
  let (w, r) := r.word
  (w.toNat, r)

/-- The next number of 64 bits, its low half first. -/
def draw64 (r : Random) : Nat × Random :=
  let (low, r) := r.word
  let (high, r) := r.word
  (low.toNat + 0x1_0000_0000 * high.toNat, r)

/-- A number below `n` from numbers of `bits` bits, of which so many are drawn at most. -/
def belowWith (draw : Random → Nat × Random) (bits n : Nat) :
    (redraws : Nat) → Random → Nat × Random
  | 0, r =>
    let (v, r) := draw r
    ((v * n) >>> bits, r)
  | redraws + 1, r =>
    let (v, r) := draw r
    if v * n % (1 <<< bits) < n <<< (bits - 1 - n.log2) then ((v * n) >>> bits, r)
    else belowWith draw bits n redraws r

/-- How often a number is redrawn at most. -/
def redrawLimit : Nat := 1000

/-- A number below `n`, from 32 bits. -/
def below32 (n : Nat) (r : Random) : Nat × Random := belowWith draw32 32 n redrawLimit r

/-- A number below `n`, from 64 bits. -/
def below64 (n : Nat) (r : Random) : Nat × Random := belowWith draw64 64 n redrawLimit r

/-! ## Shuffling -/

/-- Exchanges the places from `last` down to the second with random ones. -/
def shuffleFrom {α : Type} : (last : Nat) → Array α → Random → Array α × Random
  | 0, items, r => (items, r)
  | last + 1, items, r =>
    let other := r.below32 (last + 2)
    shuffleFrom last (items.swapIfInBounds (last + 1) other.1) other.2

/-- The items in random order. -/
def shuffle {α : Type} (items : List α) (r : Random) : List α × Random :=
  let shuffled := shuffleFrom (items.length - 1) items.toArray r
  (shuffled.1.toList, shuffled.2)

theorem perm_swapIfInBounds {α : Type} (items : Array α) (i j : Nat) :
    (items.swapIfInBounds i j).Perm items := by
  unfold Array.swapIfInBounds
  split
  · split
    · exact Array.swap_perm ..
    · exact .refl _
  · exact .refl _

theorem perm_shuffleFrom {α : Type} (last : Nat) (items : Array α) (r : Random) :
    (shuffleFrom last items r).1.Perm items := by
  induction last generalizing items r with
  | zero => exact .refl _
  | succ last ih =>
    rw [shuffleFrom]
    exact (ih _ _).trans (perm_swapIfInBounds ..)

/-- Shuffling keeps the items. -/
theorem perm_shuffle {α : Type} (items : List α) (r : Random) :
    ((shuffle items r).1).Perm items := by
  simpa [shuffle] using Array.perm_iff_toList_perm.1 (perm_shuffleFrom _ items.toArray r)

/-! ## Bounds -/

theorem draw32_lt (r : Random) : r.draw32.1 < 1 <<< 32 :=
  r.word.1.toNat_lt

theorem draw64_lt (r : Random) : r.draw64.1 < 1 <<< 64 := by
  have low := r.word.1.toNat_lt
  have high := r.word.2.word.1.toNat_lt
  simp only [draw64]
  omega

theorem belowWith_lt {draw : Random → Nat × Random} {bits n : Nat}
    (hdraw : ∀ r, (draw r).1 < 1 <<< bits) (hn : 0 < n) (redraws : Nat) (r : Random) :
    (belowWith draw bits n redraws r).1 < n := by
  have part (r : Random) : ((draw r).1 * n) >>> bits < n := by
    have draw_lt := hdraw r
    rw [Nat.one_shiftLeft] at draw_lt
    rw [Nat.shiftRight_eq_div_pow]
    exact Nat.div_lt_of_lt_mul (Nat.mul_lt_mul_of_pos_right draw_lt hn)
  induction redraws generalizing r with
  | zero => exact part r
  | succ redraws ih =>
    rw [belowWith]
    simp only
    split
    · exact part r
    · exact ih _

/-- A number drawn below a bound is below it. -/
theorem below64_lt {n : Nat} (hn : 0 < n) (r : Random) : (r.below64 n).1 < n :=
  belowWith_lt draw64_lt hn _ r

end Random

end StackSeq
