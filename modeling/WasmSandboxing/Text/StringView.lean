import WasmSandboxing.Foundation.Searching
import Mathlib.Algebra.Ring.Nat

namespace WasmSandboxing
namespace Text

open Foundation

/-!
# String views

`string-view.cc`: comparing and searching.  Positions are unsigned numbers of
64 bits that wrap around.  An iterator is an offset, and what it is compared
with or dereferenced at beyond the characters of its string is `none`.
-/

/-- `string_view`.  No size is `npos`. -/
structure StringView where
  chars : List UInt8
  fits : chars.length < 2 ^ 64 - 1

namespace StringView

abbrev SizeType := BitVec 64

/-- `size_type(-1)` -/
def npos : SizeType := -1

def size (text : StringView) : SizeType := BitVec.ofNat 64 text.chars.length

/-- `std::min` -/
def min_ (first second : SizeType) : SizeType := if second < first then second else first

/-- `*(begin() + offset)` -/
def read (text : StringView) (offset : Nat) : Option UInt8 := text.chars[offset]?

/-- `*(reverse_iterator(begin() + base) + offset)` -/
def readBack (text : StringView) (base offset : Nat) : Option UInt8 :=
  if offset < base then text.chars[base - 1 - offset]? else none

/-- The assertion holds or there is none. -/
def substr (text : StringView) (pos n : SizeType) : Option StringView :=
  if pos ≤ text.size then
    let count := min_ n (text.size - pos)
    some ⟨(text.chars.drop pos.toNat).take count.toNat,
      Nat.lt_of_le_of_lt (Nat.le_trans (List.length_take_le' ..) (List.length_drop ▸ Nat.sub_le ..))
        text.fits⟩
  else none

/-- `traits_type::compare`, by the sign of its result. -/
def traitsCompare : List UInt8 -> List UInt8 -> Nat -> Option Int
  | _, _, 0 => some 0
  | first :: rest, other :: others, count + 1 =>
      if first < other then some (-1)
      else if other < first then some 1
      else traitsCompare rest others count
  | _, _, _ => none

def compare (text s : StringView) : Option Int := do
  let rlen := min_ text.size s.size
  let result <- traitsCompare text.chars s.chars rlen.toNat
  if result ≠ 0 ∨ text.size = s.size then some result
  else some (if text.size < s.size then -1 else 1)

/-- `compare` from positions. -/
def compareSubstr (text : StringView) (pos1 n1 : SizeType) (s : StringView) (pos2 n2 : SizeType) :
    Option Int := do
  let first <- text.substr pos1 n1
  let second <- s.substr pos2 n2
  first.compare second

def find (text s : StringView) (pos : SizeType) : Option SizeType := do
  let pos := min_ pos text.size
  let stop := text.size.toNat
  let iter <- search text.read stop s.chars (stop - pos.toNat)
  some (if iter = stop then npos else BitVec.ofNat 64 iter)

def rfind (text s : StringView) (pos : SizeType) : Option SizeType := do
  let pos := min_ (min_ pos (text.size - s.size) + s.size) text.size
  let rend := pos.toNat
  let iter <- search (text.readBack pos.toNat) rend s.chars.reverse rend
  some (if iter = rend then npos else BitVec.ofNat 64 (rend - iter) - s.size)

def findFirstOf (text s : StringView) (pos : SizeType) : Option SizeType := do
  let pos := min_ pos text.size
  let stop := text.size.toNat
  let iter <- searchOne text.read stop s.chars (stop - pos.toNat)
  some (if iter = stop then npos else BitVec.ofNat 64 iter)

def findLastOf (text s : StringView) (pos : SizeType) : Option SizeType := do
  let pos := min_ pos (text.size - 1)
  let rend := (pos + 1).toNat
  let iter <- searchOne (text.readBack rend) rend s.chars rend
  some (if iter = rend then npos else BitVec.ofNat 64 (rend - iter) - 1)

/-! ## What the functions are to return -/

/-- The lowest position with a property, or `npos` if there is none. -/
def Lowest (property : Nat -> Prop) (result : SizeType) : Prop :=
  (∃ position, result = BitVec.ofNat 64 position ∧ property position ∧
      forall lower, lower < position -> ¬ property lower) ∨
    (result = npos ∧ forall position, ¬ property position)

/-- The highest position with a property, or `npos` if there is none. -/
def Highest (property : Nat -> Prop) (result : SizeType) : Prop :=
  (∃ position, result = BitVec.ofNat 64 position ∧ property position ∧
      forall higher, position < higher -> ¬ property higher) ∨
    (result = npos ∧ forall position, ¬ property position)

/-- The sign of a result is that of the lexicographic order. -/
def ComparesAs (first second : List UInt8) (result : Int) : Prop :=
  (result < 0 ∧ first < second) ∨ (result = 0 ∧ first = second) ∨ (0 < result ∧ second < first)

/-- The functions return what they are to return, without a read outside. -/
structure Conforms (text s : StringView) (pos : SizeType) : Prop where
  compare : ∃ result, text.compare s = some result ∧ ComparesAs text.chars s.chars result
  compareSubstr : forall pos1 n1 pos2 n2 : SizeType, pos1 ≤ text.size -> pos2 ≤ s.size ->
    ∃ result, text.compareSubstr pos1 n1 s pos2 n2 = some result ∧
      ComparesAs ((text.chars.drop pos1.toNat).take n1.toNat)
        ((s.chars.drop pos2.toNat).take n2.toNat) result
  find : ∃ result, text.find s pos = some result ∧
    Lowest (fun position => pos.toNat ≤ position ∧ OccursAt text.chars s.chars position) result
  rfind : ∃ result, text.rfind s pos = some result ∧
    Highest (fun position => position ≤ pos.toNat ∧ OccursAt text.chars s.chars position) result
  findFirstOf : ∃ result, text.findFirstOf s pos = some result ∧
    Lowest (fun position => pos.toNat ≤ position ∧ IsOneOf text.chars s.chars position) result
  findLastOf : ∃ result, text.findLastOf s pos = some result ∧
    Highest (fun position => position ≤ pos.toNat ∧ IsOneOf text.chars s.chars position) result

/-! ## Sizes -/

theorem size_toNat (text : StringView) : text.size.toNat = text.chars.length := by
  rw [size, BitVec.toNat_ofNat]
  exact Nat.mod_eq_of_lt (Nat.lt_of_lt_of_le text.fits (Nat.sub_le ..))

theorem min_toNat (first second : SizeType) :
    (min_ first second).toNat = min first.toNat second.toNat := by
  rw [min_]
  split
  · rename_i less
    exact (Nat.min_eq_right (Nat.le_of_lt less)).symm
  · rename_i less
    exact (Nat.min_eq_left (Nat.le_of_not_lt less)).symm

theorem npos_toNat : npos.toNat = 2 ^ 64 - 1 := rfl

theorem ofNat_ne_npos {position : Nat} (below : position < 2 ^ 64 - 1) :
    BitVec.ofNat 64 position ≠ npos := by
  intro same
  have equal := congrArg BitVec.toNat same
  rw [BitVec.toNat_ofNat, npos_toNat] at equal
  omega

/-! ## Comparing -/

/-- The common length is compared first; where it is the same the shorter one
comes first. -/
theorem traitsCompare_spec (first second : List UInt8) :
    ∃ result, traitsCompare first second (min first.length second.length) = some result ∧
      ((result = -1 ∧ first < second) ∨ (result = 1 ∧ second < first) ∨
        (result = 0 ∧ (first.length = second.length -> first = second) ∧
          (first.length < second.length -> first < second) ∧
          (second.length < first.length -> second < first))) := by
  induction first generalizing second with
  | nil =>
      refine ⟨0, by rw [List.length_nil, Nat.zero_min, traitsCompare], Or.inr (Or.inr ⟨rfl, ?_⟩)⟩
      cases second with
      | nil => exact ⟨fun _same => rfl, nofun, nofun⟩
      | cons other others => exact ⟨nofun, fun _less => List.nil_lt_cons .., nofun⟩
  | cons char rest inductionHypothesis =>
      cases second with
      | nil =>
          exact ⟨0, rfl, Or.inr (Or.inr ⟨rfl, nofun, nofun, fun _less => List.nil_lt_cons ..⟩)⟩
      | cons other others =>
          rw [List.length_cons, List.length_cons, Nat.succ_min_succ, traitsCompare]
          by_cases less : char < other
          · exact ⟨-1, if_pos less, Or.inl ⟨rfl, List.cons_lt_cons_iff.mpr (Or.inl less)⟩⟩
          rw [if_neg less]
          by_cases more : other < char
          · exact ⟨1, if_pos more,
              Or.inr (Or.inl ⟨rfl, List.cons_lt_cons_iff.mpr (Or.inl more)⟩)⟩
          have same : char = other := UInt8.le_antisymm (UInt8.not_lt.mp more) (UInt8.not_lt.mp less)
          rw [if_neg more, ← same]
          have ahead : forall {lower upper : List UInt8}, lower < upper ->
              char :: lower < char :: upper :=
            fun below => List.cons_lt_cons_iff.mpr (Or.inr ⟨rfl, below⟩)
          rcases inductionHypothesis others with ⟨result, compared, cases⟩
          refine ⟨result, compared, ?_⟩
          rcases cases with ⟨is, below⟩ | ⟨is, above⟩ | ⟨is, equal, shorter, longer⟩
          · exact Or.inl ⟨is, ahead below⟩
          · exact Or.inr (Or.inl ⟨is, ahead above⟩)
          · refine Or.inr (Or.inr ⟨is, fun lengths => ?_, fun lengths => ?_, fun lengths => ?_⟩)
            · rw [equal (Nat.succ.inj lengths)]
            · exact ahead (shorter (Nat.lt_of_succ_lt_succ lengths))
            · exact ahead (longer (Nat.lt_of_succ_lt_succ lengths))

theorem compare_spec (text s : StringView) :
    ∃ result, text.compare s = some result ∧ ComparesAs text.chars s.chars result := by
  have lengths : text.size = s.size ↔ text.chars.length = s.chars.length := by
    rw [← BitVec.toNat_inj, size_toNat, size_toNat]
  have shorter : text.size < s.size ↔ text.chars.length < s.chars.length := by
    rw [BitVec.lt_def, size_toNat, size_toNat]
  rcases traitsCompare_spec text.chars s.chars with ⟨result, compared, cases⟩
  rw [compare, min_toNat, size_toNat, size_toNat, compared]
  rcases cases with ⟨rfl, below⟩ | ⟨rfl, above⟩ | ⟨rfl, equal, less, more⟩
  · exact ⟨-1, rfl, Or.inl ⟨by decide, below⟩⟩
  · exact ⟨1, rfl, Or.inr (Or.inr ⟨by decide, above⟩)⟩
  · rcases Nat.lt_trichotomy text.chars.length s.chars.length with is | is | is
    · refine ⟨-1, ?_, Or.inl ⟨by decide, less is⟩⟩
      have unequal : ¬ ((0 : Int) ≠ 0 ∨ text.size = s.size) := by
        rw [lengths]
        omega
      exact (if_neg unequal).trans (by rw [if_pos (shorter.mpr is)])
    · exact ⟨0, if_pos (Or.inr (lengths.mpr is)), Or.inr (Or.inl ⟨rfl, equal is⟩)⟩
    · refine ⟨1, ?_, Or.inr (Or.inr ⟨by decide, more is⟩)⟩
      have unequal : ¬ ((0 : Int) ≠ 0 ∨ text.size = s.size) := by
        rw [lengths]
        omega
      have longer : ¬ text.size < s.size := by
        rw [shorter]
        omega
      exact (if_neg unequal).trans (by rw [if_neg longer])

theorem substr_spec {text : StringView} {pos : SizeType} (inside : pos ≤ text.size)
    (n : SizeType) :
    ∃ sub, text.substr pos n = some sub ∧ sub.chars = (text.chars.drop pos.toNat).take n.toNat := by
  refine ⟨_, if_pos inside, ?_⟩
  have within : pos.toNat ≤ text.chars.length := text.size_toNat ▸ BitVec.le_def.mp inside
  have left : (text.size - pos).toNat = (text.chars.drop pos.toNat).length := by
    rw [BitVec.toNat_sub_of_le inside, size_toNat, List.length_drop]
  dsimp only
  rw [min_toNat, left, ← List.take_eq_take_min]

theorem compareSubstr_spec (text s : StringView) {pos1 pos2 : SizeType} (n1 n2 : SizeType)
    (first : pos1 ≤ text.size) (second : pos2 ≤ s.size) :
    ∃ result, text.compareSubstr pos1 n1 s pos2 n2 = some result ∧
      ComparesAs ((text.chars.drop pos1.toNat).take n1.toNat)
        ((s.chars.drop pos2.toNat).take n2.toNat) result := by
  rcases substr_spec first n1 with ⟨left, found, leftChars⟩
  rcases substr_spec second n2 with ⟨right, foundOther, rightChars⟩
  rw [compareSubstr, found, foundOther, ← leftChars, ← rightChars]
  exact compare_spec left right

/-! ## Searching forwards -/

section Forwards

variable {property : Nat -> Prop} {pos length iter : Nat}

/-- What a search forwards from a position gives. -/
theorem lowest_of_firstFrom (short : length < 2 ^ 64 - 1)
    (first : FirstFrom property (length - (length - min pos length)) length iter)
    (within : forall position, property position -> position ≤ length)
    (ends : iter = length -> property iter -> length < pos) :
    Lowest (fun position => pos ≤ position ∧ property position)
      (if iter = length then npos else BitVec.ofNat 64 iter) := by
  have start : length - (length - min pos length) = min pos length := by omega
  rw [start] at first
  rcases first with ⟨above, holds, before⟩ | ⟨ended, none⟩
  · by_cases ended : iter = length
    · rw [if_pos ended]
      refine Or.inr ⟨rfl, fun position ⟨beyond, is⟩ => ?_⟩
      have below := within position is
      have least := ends ended holds
      omega
    · have below := within iter holds
      rw [if_neg ended]
      refine Or.inl ⟨iter, rfl, ⟨by omega, holds⟩, fun lower less ⟨beyond, is⟩ => ?_⟩
      exact before lower (Nat.le_trans (Nat.min_le_left ..) beyond) less is
  · rw [if_pos ended]
    exact Or.inr ⟨rfl, fun position ⟨beyond, is⟩ =>
      none position (Nat.le_trans (Nat.min_le_left ..) beyond) is⟩

end Forwards

theorem not_lowest_npos {text : StringView} {property : Nat -> Prop}
    (within : forall position, property position -> position ≤ text.chars.length) {found : Nat}
    (holds : property found) : ¬ Lowest property npos := by
  rintro (⟨position, same, is, _lower⟩ | ⟨_same, none⟩)
  · exact ofNat_ne_npos (Nat.lt_of_le_of_lt (within position is) text.fits) same.symm
  · exact none found holds

theorem reads_forwards (text : StringView) :
    forall index, index < text.chars.length -> text.read index = text.chars[index]? :=
  fun _index _below => rfl

/-- An empty string occurs where the text ends, which `find` takes for nowhere. -/
theorem find_iff (text s : StringView) (pos : SizeType) :
    (∃ result, text.find s pos = some result ∧
      Lowest (fun position => pos.toNat ≤ position ∧ OccursAt text.chars s.chars position)
        result) ↔ ¬ (s.chars = [] ∧ pos = text.size) := by
  have within : forall position, OccursAt text.chars s.chars position ->
      position ≤ text.chars.length := fun position occurs =>
    Nat.le_trans (Nat.le_add_right ..) occurs.1
  have atSize : pos = text.size ↔ pos.toNat = text.chars.length := by
    rw [← BitVec.toNat_inj, size_toNat]
  rcases search_first text.reads_forwards s.chars
    (Nat.sub_le text.chars.length (min pos.toNat text.chars.length)) with ⟨iter, found, first⟩
  have finds : text.find s pos =
      some (if iter = text.chars.length then npos else BitVec.ofNat 64 iter) := by
    rw [find, min_toNat, size_toNat, found]
    rfl
  rw [finds, atSize]
  constructor
  · rintro ⟨result, same, lowest⟩ ⟨empty, atEnd⟩
    cases same
    have occurs : OccursAt text.chars s.chars text.chars.length :=
      empty ▸ occursAt_nil (Nat.le_refl _)
    have ended : iter = text.chars.length := by
      rcases first with ⟨above, holds, _before⟩ | ⟨ended, _none⟩
      · have below := within iter holds
        omega
      · exact ended
    rw [if_pos ended] at lowest
    exact not_lowest_npos (fun position is => within position is.2) ⟨Nat.le_of_eq atEnd, occurs⟩
      lowest
  · intro notEmpty
    refine ⟨_, rfl, lowest_of_firstFrom text.fits first within fun ended occurs => ?_⟩
    have empty : s.chars = [] := by
      rw [← List.length_eq_zero_iff]
      have fits := occurs.1
      omega
    by_contra before
    rcases first with ⟨_above, _holds, earlier⟩ | ⟨_ended, none⟩
    · have outside : pos.toNat ≠ text.chars.length := fun same => notEmpty ⟨empty, same⟩
      refine earlier (min pos.toNat text.chars.length) (by omega) (by omega) ?_
      exact empty ▸ occursAt_nil (Nat.min_le_right ..)
    · exact none iter (by omega) occurs

theorem findFirstOf_spec (text s : StringView) (pos : SizeType) :
    ∃ result, text.findFirstOf s pos = some result ∧
      Lowest (fun position => pos.toNat ≤ position ∧ IsOneOf text.chars s.chars position)
        result := by
  have inside : forall position, IsOneOf text.chars s.chars position ->
      position < text.chars.length := fun position ⟨_element, found, _member⟩ =>
    (List.getElem?_eq_some_iff.mp found).1
  rcases searchOne_first text.reads_forwards s.chars
    (Nat.sub_le text.chars.length (min pos.toNat text.chars.length)) with ⟨iter, found, first⟩
  have finds : text.findFirstOf s pos =
      some (if iter = text.chars.length then npos else BitVec.ofNat 64 iter) := by
    rw [findFirstOf, min_toNat, size_toNat, found]
    rfl
  refine ⟨_, finds, lowest_of_firstFrom text.fits first
    (fun position is => Nat.le_of_lt (inside position is)) fun ended is => ?_⟩
  exact absurd ended (Nat.ne_of_lt (inside iter is))

/-! ## Searching backwards -/

theorem reads_backwards (text : StringView) {base : Nat} (inside : base ≤ text.chars.length) :
    forall index, index < (text.chars.take base).reverse.length ->
      text.readBack base index = (text.chars.take base).reverse[index]? := by
  intro index below
  rw [List.length_reverse, List.length_take_of_le inside] at below
  rw [readBack, if_pos below, take_reverse_getElem? inside below]

/-- What a search backwards from the end of `base` characters gives, for what
takes `width` of them. -/
theorem highest_of_firstFrom {property mirrored : Nat -> Prop} {pos base width offset : Nat}
    (short : base < 2 ^ 64)
    (mirror : forall offset, mirrored offset ↔
      offset + width ≤ base ∧ property (base - offset - width))
    (fits : forall position, property position ->
      (position ≤ pos ↔ position + width ≤ base))
    (first : FirstFrom mirrored 0 base offset) (ends : width = 0 -> base ≠ 0 ∧ property base) :
    Highest (fun position => position ≤ pos ∧ property position)
      (if offset = base then npos
        else BitVec.ofNat 64 (base - offset) - BitVec.ofNat 64 width) := by
  have higher : forall position, property position -> position ≤ pos ->
      mirrored (base - width - position) := by
    intro position is below
    have room := (fits position is).mp below
    refine (mirror _).mpr ⟨by omega, ?_⟩
    rw [show base - (base - width - position) - width = position by omega]
    exact is
  rcases first with ⟨_above, holds, before⟩ | ⟨ended, none⟩
  · rcases (mirror offset).mp holds with ⟨room, is⟩
    have apart : offset ≠ base := by
      intro ended
      have narrow : width = 0 := by omega
      have some_ := (ends narrow).1
      refine before 0 (Nat.le_refl 0) (by omega) ((mirror 0).mpr ⟨by omega, ?_⟩)
      rw [narrow]
      exact (ends narrow).2
    rw [if_neg apart, BitVec.ofNat_sub_ofNat_of_le _ _ (by omega) (by omega)]
    refine Or.inl ⟨base - offset - width, rfl, ⟨(fits _ is).mpr (by omega), is⟩, ?_⟩
    rintro position more ⟨below, same⟩
    have room := (fits position same).mp below
    exact before _ (Nat.zero_le _) (by omega) (higher position same below)
  · rw [if_pos ended]
    exact Or.inr ⟨rfl, fun position ⟨below, is⟩ => none _ (Nat.zero_le _) (higher position is below)⟩

theorem not_highest_npos {text : StringView} {property : Nat -> Prop}
    (within : forall position, property position -> position ≤ text.chars.length) {found : Nat}
    (holds : property found) : ¬ Highest property npos := by
  rintro (⟨position, same, is, _higher⟩ | ⟨_same, none⟩)
  · exact ofNat_ne_npos (Nat.lt_of_le_of_lt (within position is) text.fits) same.symm
  · exact none found holds

/-- Where the characters end that `rfind` searches. -/
theorem rfind_base (text s : StringView) (pos : SizeType) :
    let base := (min_ (min_ pos (text.size - s.size) + s.size) text.size).toNat
    base ≤ text.chars.length ∧ (s.chars.length ≤ text.chars.length ->
      base = min pos.toNat (text.chars.length - s.chars.length) + s.chars.length) := by
  have fits := text.fits
  have otherFits := s.fits
  have small := pos.isLt
  dsimp only
  rw [min_toNat, BitVec.toNat_add, min_toNat, BitVec.toNat_sub, size_toNat, size_toNat]
  refine ⟨Nat.min_le_right .., fun shorter => ?_⟩
  have difference : (2 ^ 64 - s.chars.length + text.chars.length) % 2 ^ 64 =
      text.chars.length - s.chars.length := by
    omega
  rw [difference, Nat.mod_eq_of_lt (by omega)]
  omega

/-- An empty string occurs at the beginning, which `rfind` takes for nowhere. -/
theorem rfind_iff (text s : StringView) (pos : SizeType) :
    (∃ result, text.rfind s pos = some result ∧
      Highest (fun position => position ≤ pos.toNat ∧ OccursAt text.chars s.chars position)
        result) ↔ ¬ (s.chars = [] ∧ (pos = 0 ∨ text.chars = [])) := by
  rcases rfind_base text s pos with ⟨inside, exact_⟩
  generalize based : (min_ (min_ pos (text.size - s.size) + s.size) text.size).toNat = base at *
  rcases search_first (text.reads_backwards inside) s.chars.reverse
    (Nat.le_of_eq (by rw [List.length_reverse, List.length_take_of_le inside]) :
      base ≤ (text.chars.take base).reverse.length) with ⟨offset, found, first⟩
  rw [List.length_reverse, List.length_take_of_le inside] at found first
  rw [Nat.sub_self] at first
  have finds : text.rfind s pos = some (if offset = base then npos
      else BitVec.ofNat 64 (base - offset) - BitVec.ofNat 64 s.chars.length) := by
    rw [rfind, based, found]
    rfl
  have atBeginning : pos = 0 ↔ pos.toNat = 0 := by
    rw [← BitVec.toNat_inj]
    rfl
  rw [finds, atBeginning]
  constructor
  · rintro ⟨result, same, highest⟩ ⟨empty, atStart⟩
    cases same
    have none : base = 0 := by
      rw [exact_ (empty ▸ Nat.zero_le _), empty, List.length_nil]
      rcases atStart with atStart | noText
      · omega
      · rw [noText, List.length_nil]
        omega
    have ended : offset = base := by
      rcases first with ⟨_above, holds, _before⟩ | ⟨ended, _none⟩
      · have room := ((occursAt_reverse inside s.chars offset).mp holds).1
        omega
      · exact ended
    rw [if_pos ended] at highest
    have occurs : OccursAt text.chars s.chars 0 := empty ▸ occursAt_nil (Nat.zero_le _)
    exact not_highest_npos
      (fun position is => Nat.le_trans (Nat.le_add_right ..) is.2.1) ⟨Nat.zero_le _, occurs⟩ highest
  · intro notEmpty
    have short : base < 2 ^ 64 := Nat.lt_of_le_of_lt inside (Nat.lt_trans text.fits (by decide))
    refine ⟨_, rfl, highest_of_firstFrom short
      (occursAt_reverse inside s.chars) (fun position occurs => ?_) first fun narrow => ?_⟩
    · have within := occurs.1
      rw [exact_ (by omega)]
      omega
    · have empty := List.length_eq_zero_iff.mp narrow
      refine ⟨fun none => notEmpty ⟨empty, ?_⟩, empty ▸ occursAt_nil inside⟩
      rw [← List.length_eq_zero_iff]
      have reached := exact_ (narrow ▸ Nat.zero_le _)
      omega

/-- Where the characters end that `find_last_of` searches. -/
theorem findLastOf_base {text : StringView} (some_ : text.chars ≠ []) (pos : SizeType) :
    (min_ pos (text.size - 1) + 1).toNat = min pos.toNat (text.chars.length - 1) + 1 := by
  have fits := text.fits
  have positive := List.length_pos_of_ne_nil some_
  have one_ : (1 : SizeType).toNat = 1 := rfl
  have last : (text.size - 1).toNat = text.chars.length - 1 := by
    rw [BitVec.toNat_sub_of_le, size_toNat, one_]
    rw [BitVec.le_def, size_toNat, one_]
    exact positive
  rw [BitVec.toNat_add, min_toNat, last, one_]
  omega

theorem findLastOf_some {text : StringView} (some_ : text.chars ≠ []) (s : StringView)
    (pos : SizeType) :
    ∃ result, text.findLastOf s pos = some result ∧
      Highest (fun position => position ≤ pos.toNat ∧ IsOneOf text.chars s.chars position)
        result := by
  have positive := List.length_pos_of_ne_nil some_
  have based := findLastOf_base some_ pos
  have inside : min pos.toNat (text.chars.length - 1) + 1 ≤ text.chars.length := by omega
  have bounds : forall position, IsOneOf text.chars s.chars position ->
      (position ≤ pos.toNat ↔ position + 1 ≤ min pos.toNat (text.chars.length - 1) + 1) := by
    rintro position ⟨element, found, _member⟩
    have below := (List.getElem?_eq_some_iff.mp found).1
    omega
  generalize min pos.toNat (text.chars.length - 1) + 1 = base at based inside bounds
  have short : base < 2 ^ 64 := Nat.lt_of_le_of_lt inside (Nat.lt_trans text.fits (by decide))
  rcases searchOne_first (text.reads_backwards inside) s.chars
    (Nat.le_of_eq (by rw [List.length_reverse, List.length_take_of_le inside]) :
      base ≤ (text.chars.take base).reverse.length) with ⟨offset, found, first⟩
  rw [List.length_reverse, List.length_take_of_le inside] at found first
  rw [Nat.sub_self] at first
  have finds : text.findLastOf s pos = some (if offset = base then npos
      else BitVec.ofNat 64 (base - offset) - BitVec.ofNat 64 1) := by
    rw [findLastOf, based, found]
    rfl
  exact ⟨_, finds, highest_of_firstFrom short (isOneOf_reverse inside s.chars) bounds first nofun⟩

theorem findLastOf_none {text : StringView} (empty : text.chars = []) (s : StringView)
    (pos : SizeType) :
    text.findLastOf s pos = if pos = npos ∨ s.chars = [] then some npos else none := by
  have whole : min_ pos (text.size - 1) = pos := by
    have last : text.size - 1 = npos := by
      rw [size, empty]
      rfl
    have small := pos.isLt
    rw [← BitVec.toNat_inj, min_toNat, last, npos_toNat]
    omega
  rw [findLastOf, whole]
  by_cases wraps : pos = npos
  · rw [wraps]
    rfl
  by_cases nothing : s.chars = []
  · rw [nothing, searchOne_nil, if_pos (Or.inr rfl)]
    exact congrArg some (if_pos rfl)
  · have base : (pos + 1).toNat = pos.toNat + 1 := by
      have small := pos.isLt
      have apart : pos.toNat ≠ 2 ^ 64 - 1 := fun same => wraps (BitVec.toNat_inj.mp same)
      rw [BitVec.toNat_add]
      change (pos.toNat + 1) % 2 ^ 64 = _
      omega
    have outside : text.readBack (pos.toNat + 1) (pos.toNat + 1 - (pos.toNat + 1)) = none := by
      rw [readBack, empty, List.getElem?_nil, ite_self]
    rw [base, searchOne_outside nothing outside, if_neg (not_or.mpr ⟨wraps, nothing⟩)]
    rfl

/-- In an empty string `find_last_of` goes back from any position but `npos`. -/
theorem findLastOf_iff (text s : StringView) (pos : SizeType) :
    (∃ result, text.findLastOf s pos = some result ∧
      Highest (fun position => position ≤ pos.toNat ∧ IsOneOf text.chars s.chars position)
        result) ↔ ¬ (text.chars = [] ∧ pos ≠ npos ∧ s.chars ≠ []) := by
  by_cases empty : text.chars = []
  · rw [findLastOf_none empty]
    by_cases ended : pos = npos ∨ s.chars = []
    · rw [if_pos ended]
      refine iff_of_true ⟨npos, rfl, Or.inr ⟨rfl, ?_⟩⟩ fun outside =>
        ended.elim outside.2.1 outside.2.2
      rintro position ⟨_below, element, found, _member⟩
      rw [empty] at found
      cases found
    · rw [if_neg ended]
      refine iff_of_false ?_ (not_not_intro ⟨empty, not_or.mp ended⟩)
      rintro ⟨result, impossible, _highest⟩
      cases impossible
  · exact iff_of_true (findLastOf_some empty s pos) fun outside => empty outside.1

/-- The functions conform where an empty string is not searched for at an end of
the text, and an empty text is not searched backwards from a position for some
character. -/
theorem conforms_iff (text s : StringView) (pos : SizeType) :
    Conforms text s pos ↔
      (s.chars = [] -> text.chars ≠ [] ∧ pos ≠ 0 ∧ pos ≠ text.size) ∧
        (s.chars ≠ [] -> text.chars = [] -> pos = npos) := by
  constructor
  · intro conforms
    have finds := (find_iff text s pos).mp conforms.find
    have finds_back := (rfind_iff text s pos).mp conforms.rfind
    have finds_last := (findLastOf_iff text s pos).mp conforms.findLastOf
    refine ⟨fun empty => ⟨fun vacant => ?_, fun zero => ?_, fun atEnd => ?_⟩, fun some_ vacant => ?_⟩
    · exact finds_back ⟨empty, Or.inr vacant⟩
    · exact finds_back ⟨empty, Or.inl zero⟩
    · exact finds ⟨empty, atEnd⟩
    · by_contra apart
      exact finds_last ⟨vacant, apart, some_⟩
  · rintro ⟨ends, back⟩
    refine ⟨compare_spec text s, fun pos1 n1 pos2 n2 => compareSubstr_spec text s n1 n2,
      (find_iff text s pos).mpr ?_, (rfind_iff text s pos).mpr ?_, findFirstOf_spec text s pos,
      (findLastOf_iff text s pos).mpr ?_⟩
    · exact fun ⟨empty, atEnd⟩ => (ends empty).2.2 atEnd
    · exact fun ⟨empty, atStart⟩ => atStart.elim (ends empty).2.1 (ends empty).1
    · exact fun ⟨vacant, apart, some_⟩ => apart (back some_ vacant)

/-- The empty string is at the end of "abc", and in front of it; and there is
nothing to be read in an empty string. -/
theorem empty_not_found :
    find ⟨[97, 98, 99], by decide⟩ ⟨[], by decide⟩ 3 = some npos ∧
    rfind ⟨[97, 98, 99], by decide⟩ ⟨[], by decide⟩ 0 = some npos ∧
    findLastOf ⟨[], by decide⟩ ⟨[97], by decide⟩ 0 = none ∧
    ¬ Conforms ⟨[97, 98, 99], by decide⟩ ⟨[], by decide⟩ 3 ∧
    ¬ Conforms ⟨[97, 98, 99], by decide⟩ ⟨[], by decide⟩ 0 ∧
    ¬ Conforms ⟨[], by decide⟩ ⟨[97], by decide⟩ 0 := by
  refine ⟨by decide, by decide, by decide, fun conforms => ?_, fun conforms => ?_,
    fun conforms => ?_⟩
  · exact (find_iff ..).mp conforms.find ⟨rfl, rfl⟩
  · exact (rfind_iff ..).mp conforms.rfind ⟨rfl, Or.inl rfl⟩
  · exact (findLastOf_iff ..).mp conforms.findLastOf ⟨rfl, by decide, by decide⟩

end StringView

end Text
end WasmSandboxing
