import WasmSandboxing.Binary.Entities
import WasmSandboxing.Foundation.Except
import WasmSandboxing.Foundation.Utf8

namespace WasmSandboxing
namespace Binary

open Foundation Foundation.Utf8

/-!
# Validation of UTF-8

`IsValidUtf8` with its table of lengths.  The string is what lies between `p`
and `end`, and a read behind `end` has no result.
-/

namespace Utf8

/-- `s_utf8_length` -/
def utf8Lengths : List (Fin 5) :=
  List.replicate 0x80 1 ++ (List.replicate 0x42 0 ++ (List.replicate 0x1e 2 ++
    (List.replicate 0x10 3 ++ (List.replicate 5 4 ++ List.replicate 11 0))))

def utf8Length (byte : BitVec 8) : Fin 5 := utf8Lengths.getD byte.toNat 0

/-- `IsCont` -/
def isCont (c : BitVec 8) : Bool := (c &&& 0xc0) == 0x80

/-- `IsValidUtf8` -/
def isValidUtf8 : List (BitVec 8) -> Option Bool
  | [] => some true
  | cu0 :: rest =>
      let length := utf8Length cu0
      if rest.length + 1 < length.val then some false
      else match length, rest with
        | 0, _ => some false
        | 1, rest => isValidUtf8 rest
        | 2, cu1 :: rest => if !isCont cu1 then some false else isValidUtf8 rest
        | 3, cu1 :: cu2 :: rest =>
            if !(isCont cu1 && isCont cu2) ||
                (cu0 == 0xe0 && cu1.toNat < 0xa0) ||  -- Overlong encoding.
                (cu0 == 0xed && 0xa0 ≤ cu1.toNat)  -- UTF-16 surrogate halves.
            then some false
            else isValidUtf8 rest
        | 4, cu1 :: cu2 :: cu3 :: rest =>
            if !(isCont cu1 && isCont cu2 && isCont cu3) ||
                (cu0 == 0xf0 && cu1.toNat < 0x90) ||  -- Overlong encoding.
                (cu0 == 0xf4 && 0x90 ≤ cu1.toNat)  -- Code point >= 0x11000.
            then some false
            else isValidUtf8 rest
        | _, _ => none

/-! ## The table and the tests -/

section Leading

variable {byte : BitVec 8}

/-- The table by the ranges of the leading bytes. -/
theorem utf8Length_eq (byte : BitVec 8) : utf8Length byte =
    if byte.toNat < 0x80 then 1
    else if byte.toNat < 0xc2 then 0
    else if byte.toNat < 0xe0 then 2
    else if byte.toNat < 0xf0 then 3
    else if byte.toNat < 0xf5 then 4
    else 0 := by
  revert byte
  decide +kernel

theorem stray_of_length (stray : utf8Length byte = 0) :
    (0x80 ≤ byte.toNat ∧ byte.toNat < 0xc2) ∨ 0xf5 ≤ byte.toNat := by
  grind [utf8Length_eq byte]

theorem one_of_length (one : utf8Length byte = 1) : byte.toNat < 0x80 := by
  grind [utf8Length_eq byte]

theorem two_of_length (two : utf8Length byte = 2) :
    0xc2 ≤ byte.toNat ∧ byte.toNat < 0xe0 := by
  grind [utf8Length_eq byte]

theorem three_of_length (three : utf8Length byte = 3) :
    0xe0 ≤ byte.toNat ∧ byte.toNat < 0xf0 := by
  grind [utf8Length_eq byte]

theorem four_of_length (four : utf8Length byte = 4) :
    0xf0 ≤ byte.toNat ∧ byte.toNat < 0xf5 := by
  grind [utf8Length_eq byte]

theorem length_cases (byte : BitVec 8) : utf8Length byte = 0 ∨ utf8Length byte = 1 ∨
    utf8Length byte = 2 ∨ utf8Length byte = 3 ∨ utf8Length byte = 4 := by
  grind [utf8Length_eq byte]

end Leading

theorem isCont_iff (c : BitVec 8) : isCont c = true ↔ Continuation c.toNat := by
  have bytes : forall c : BitVec 8, isCont c = decide (0x80 ≤ c.toNat ∧ c.toNat < 0xc0) := by
    decide +kernel
  rw [bytes, decide_eq_true_eq, Continuation]

/-- The exceptional second bytes of the two first bytes `least` and `last`. -/
theorem second_iff (cu0 cu1 least last : BitVec 8) (bound limit : Nat) :
    ((cu0 == least && cu1.toNat < bound) || (cu0 == last && limit ≤ cu1.toNat)) = false ↔
      (cu0.toNat = least.toNat -> bound ≤ cu1.toNat) ∧
        (cu0.toNat = last.toNat -> cu1.toNat < limit) := by
  simp only [Bool.or_eq_false_iff, Bool.and_eq_false_imp, beq_iff_eq, decide_eq_false_iff_not,
    Nat.not_lt, Nat.not_le, BitVec.toNat_inj]

/-! ## Exactness -/

/-- The bytes as numbers. -/
def numbers (bytes : List (BitVec 8)) : List Nat := bytes.map BitVec.toNat

@[simp] theorem numbers_cons (byte : BitVec 8) (rest : List (BitVec 8)) :
    numbers (byte :: rest) = byte.toNat :: numbers rest := rfl

/-- A result that tells whether the bytes are well formed. -/
def Tells (bytes : List (BitVec 8)) (result : Option Bool) : Prop :=
  ∃ valid, result = some valid ∧ (valid = true ↔ WellFormed (numbers bytes))

section Results

variable {bytes rest : List (BitVec 8)} {cu0 : BitVec 8}

theorem tells_false (refused : ¬ WellFormed (numbers bytes)) : Tells bytes (some false) :=
  ⟨false, rfl, fun same => (nomatch same), fun text => absurd text refused⟩

theorem Tells.cons (later : Tells rest (isValidUtf8 rest))
    (same : WellFormed (numbers bytes) ↔ WellFormed (numbers rest)) :
    Tells bytes (isValidUtf8 rest) := by
  rcases later with ⟨valid, result, exact⟩
  exact ⟨valid, result, exact.trans same.symm⟩

/-- A character that is cut off by the end of the string. -/
theorem truncated (short : rest.length + 1 < (utf8Length cu0).val) :
    ¬ WellFormed (numbers (cu0 :: rest)) := by
  have size : (numbers rest).length = rest.length := List.length_map ..
  rw [numbers_cons]
  rcases length_cases cu0 with zero | one | two | three | four
  · rw [zero] at short
    exact absurd short (Nat.not_lt_zero _)
  · rw [one] at short
    exact absurd short (by simp)
  · rw [two] at short
    rcases two_of_length two with ⟨low, high⟩
    rw [wellFormed_two low high]
    rintro ⟨b, later, same, _⟩
    rw [same, List.length_cons] at size
    exact absurd short (by simp only [Fin.isValue, Fin.val_two]; omega)
  · rw [three] at short
    rcases three_of_length three with ⟨low, high⟩
    rw [wellFormed_three low high]
    rintro ⟨b, c, later, same, _⟩
    rw [same, List.length_cons, List.length_cons] at size
    exact absurd short (by change ¬ _ < 3; omega)
  · rw [four] at short
    rcases four_of_length four with ⟨low, high⟩
    rw [wellFormed_four low high]
    rintro ⟨b, c, d, later, same, _⟩
    rw [same, List.length_cons, List.length_cons, List.length_cons] at size
    exact absurd short (by change ¬ _ < 4; omega)

end Results

theorem isValidUtf8_tells (bytes : List (BitVec 8)) : Tells bytes (isValidUtf8 bytes) := by
  fun_induction isValidUtf8 bytes with
  | case1 => exact ⟨true, rfl, fun _ => wellFormed_nil, fun _ => rfl⟩
  | case2 cu0 rest length short => exact tells_false (truncated short)
  | case3 cu0 rest length enough zero =>
      exact tells_false (not_wellFormed (stray_of_length zero))
  | case4 cu0 length rest one enough inductionHypothesis =>
      exact inductionHypothesis.cons (wellFormed_one (one_of_length one))
  | case5 cu0 length cu1 rest two bad enough =>
      rcases two_of_length two with ⟨low, high⟩
      refine tells_false ?_
      rw [numbers_cons, wellFormed_two low high]
      rintro ⟨b, later, same, second, _⟩
      cases same
      rw [← isCont_iff] at second
      simp [second] at bad
  | case6 cu0 length cu1 rest two good enough inductionHypothesis =>
      rcases two_of_length two with ⟨low, high⟩
      refine inductionHypothesis.cons ?_
      rw [Bool.not_eq_true, Bool.not_eq_false', isCont_iff] at good
      rw [numbers_cons, wellFormed_two low high]
      constructor
      · rintro ⟨b, later, same, _, behind⟩
        cases same
        exact behind
      · exact fun behind => ⟨_, _, rfl, good, behind⟩
  | case7 cu0 length cu1 cu2 rest three bad enough =>
      rcases three_of_length three with ⟨low, high⟩
      refine tells_false ?_
      rw [numbers_cons, wellFormed_three low high]
      rintro ⟨b, c, later, same, ⟨second, third, exceptions⟩, _⟩
      cases same
      rw [← isCont_iff] at second third
      rw [Bool.or_assoc, (second_iff cu0 cu1 0xe0 0xed 0xa0 0xa0).mpr exceptions, second,
        third] at bad
      cases bad
  | case8 cu0 length cu1 cu2 rest three good enough inductionHypothesis =>
      rcases three_of_length three with ⟨low, high⟩
      refine inductionHypothesis.cons ?_
      rw [Bool.not_eq_true, Bool.or_assoc, Bool.or_eq_false_iff, Bool.not_eq_false',
        Bool.and_eq_true, isCont_iff, isCont_iff] at good
      rcases good with ⟨⟨second, third⟩, exceptions⟩
      rw [numbers_cons, wellFormed_three low high]
      constructor
      · rintro ⟨b, c, later, same, _, behind⟩
        cases same
        exact behind
      · exact fun behind => ⟨_, _, _, rfl,
          ⟨second, third, (second_iff cu0 cu1 0xe0 0xed 0xa0 0xa0).mp exceptions⟩, behind⟩
  | case9 cu0 length cu1 cu2 cu3 rest four bad enough =>
      rcases four_of_length four with ⟨low, high⟩
      refine tells_false ?_
      rw [numbers_cons, wellFormed_four low high]
      rintro ⟨b, c, d, later, same, ⟨second, third, fourth, exceptions⟩, _⟩
      cases same
      rw [← isCont_iff] at second third fourth
      rw [Bool.or_assoc, (second_iff cu0 cu1 0xf0 0xf4 0x90 0x90).mpr exceptions, second,
        third, fourth] at bad
      cases bad
  | case10 cu0 length cu1 cu2 cu3 rest four good enough inductionHypothesis =>
      rcases four_of_length four with ⟨low, high⟩
      refine inductionHypothesis.cons ?_
      rw [Bool.not_eq_true, Bool.or_assoc, Bool.or_eq_false_iff, Bool.not_eq_false',
        Bool.and_eq_true, Bool.and_eq_true, isCont_iff, isCont_iff, isCont_iff] at good
      rcases good with ⟨⟨⟨second, third⟩, fourth⟩, exceptions⟩
      rw [numbers_cons, wellFormed_four low high]
      constructor
      · rintro ⟨b, c, d, later, same, _, behind⟩
        cases same
        exact behind
      · exact fun behind => ⟨_, _, _, _, rfl, ⟨second, third, fourth,
          (second_iff cu0 cu1 0xf0 0xf4 0x90 0x90).mp exceptions⟩, behind⟩
  | case11 cu0 rest length enough notZero notOne notTwo notThree notFour =>
      -- The length was compared with what is left, so every byte is there.
      exfalso
      rcases length_cases cu0 with zero | one | two | three | four
      · exact notZero zero
      · exact notOne one
      · rw [show length = 2 from two] at enough
        rcases rest with _ | ⟨cu1, rest⟩
        · exact enough (show 1 < 2 by decide)
        · exact notTwo cu1 rest two rfl
      · rw [show length = 3 from three] at enough
        rcases rest with _ | ⟨cu1, _ | ⟨cu2, rest⟩⟩
        · exact enough (show 1 < 3 by decide)
        · exact enough (show 2 < 3 by decide)
        · exact notThree cu1 cu2 rest three rfl
      · rw [show length = 4 from four] at enough
        rcases rest with _ | ⟨cu1, _ | ⟨cu2, _ | ⟨cu3, rest⟩⟩⟩
        · exact enough (show 1 < 4 by decide)
        · exact enough (show 2 < 4 by decide)
        · exact enough (show 3 < 4 by decide)
        · exact notFour cu1 cu2 cu3 rest four rfl

/-- The validation ends without a read behind the string, with `true` for
well-formed text and for nothing else. -/
theorem isValidUtf8_exact (bytes : List (BitVec 8)) : ∃ valid,
    isValidUtf8 bytes = some valid ∧ (valid = true ↔ WellFormed (numbers bytes)) :=
  isValidUtf8_tells bytes

/-! ## The validation in the reader -/

theorem reader_isCont_iff (c : BitVec 8) :
    Binary.isCont c = true ↔ Continuation c.toNat := by
  rw [Binary.isCont, Bool.and_eq_true, decide_eq_true_eq, decide_eq_true_eq, Continuation]

/-- Nothing is well formed that begins with a longer character than there are
bytes, or with a byte that begins none. -/
theorem short_not_wellFormed {a : Nat} {rest : List Nat} (one : ¬ a < 0x80)
    (two : 0xc2 ≤ a -> a < 0xe0 -> rest = []) (three : 0xe0 ≤ a -> a < 0xf0 -> rest.length < 2)
    (four : 0xf0 ≤ a -> a < 0xf5 -> rest.length < 3) : ¬ WellFormed (a :: rest) := by
  intro text
  by_cases stray : (0x80 ≤ a ∧ a < 0xc2) ∨ 0xf5 ≤ a
  · exact not_wellFormed stray text
  · by_cases isTwo : a < 0xe0
    · rcases (wellFormed_two (by omega) isTwo).mp text with ⟨_, _, same, _⟩
      exact nomatch same.symm.trans (two (by omega) isTwo)
    · by_cases isThree : a < 0xf0
      · rcases (wellFormed_three (by omega) isThree).mp text with ⟨_, _, _, same, _⟩
        have short := three (by omega) isThree
        rw [same, List.length_cons, List.length_cons] at short
        omega
      · rcases (wellFormed_four (by omega) (by omega)).mp text with ⟨_, _, _, _, same, _⟩
        have short := four (by omega) (by omega)
        rw [same, List.length_cons, List.length_cons, List.length_cons] at short
        omega

theorem reader_isValidUtf8_iff (bytes : List (BitVec 8)) :
    Binary.isValidUtf8 bytes = true ↔ WellFormed (numbers bytes) := by
  fun_induction Binary.isValidUtf8 bytes with
  | case1 => exact ⟨fun _ => wellFormed_nil, fun _ => rfl⟩
  | case2 first rest one inductionHypothesis =>
      rw [inductionHypothesis, numbers_cons, wellFormed_one one]
  | case3 first notOne =>
      refine iff_of_false Bool.false_ne_true (short_not_wellFormed notOne ?_ ?_ ?_) <;>
        simp
  | case4 first notOne second rest two inductionHypothesis =>
      rw [Bool.and_eq_true, decide_eq_true_eq, decide_eq_true_eq] at two
      rw [Bool.and_eq_true, reader_isCont_iff, inductionHypothesis, numbers_cons,
        wellFormed_two two.1 two.2]
      constructor
      · rintro ⟨cont, behind⟩
        exact ⟨_, _, rfl, cont, behind⟩
      · rintro ⟨_, _, same, cont, behind⟩
        cases same
        exact ⟨cont, behind⟩
  | case5 first notOne second notTwo =>
      rw [Bool.and_eq_true, decide_eq_true_eq, decide_eq_true_eq] at notTwo
      refine iff_of_false Bool.false_ne_true (short_not_wellFormed notOne ?_ ?_ ?_)
      · exact fun low high => absurd ⟨low, high⟩ notTwo
      · simp
      · simp
  | case6 first notOne second notTwo third rest three inductionHypothesis =>
      rw [Bool.and_eq_true, decide_eq_true_eq, decide_eq_true_eq] at three
      rw [numbers_cons, wellFormed_three three.1 three.2]
      have overlong : first = 0xe0 ↔ first.toNat = 0xe0 := BitVec.toNat_inj.symm
      have surrogate : first = 0xed ↔ first.toNat = 0xed := BitVec.toNat_inj.symm
      simp only [Bool.and_eq_true, reader_isCont_iff, inductionHypothesis, Bool.not_eq_true',
        Bool.and_eq_false_imp, decide_eq_true_eq, decide_eq_false_iff_not, Nat.not_lt,
        Nat.not_le, overlong, surrogate]
      constructor
      · rintro ⟨⟨⟨⟨cont, last⟩, least⟩, most⟩, behind⟩
        exact ⟨_, _, _, rfl, ⟨cont, last, least, most⟩, behind⟩
      · rintro ⟨_, _, _, same, ⟨cont, last, least, most⟩, behind⟩
        cases same
        exact ⟨⟨⟨⟨cont, last⟩, least⟩, most⟩, behind⟩
  | case7 first notOne second notTwo third notThree =>
      rw [Bool.and_eq_true, decide_eq_true_eq, decide_eq_true_eq] at notTwo notThree
      refine iff_of_false Bool.false_ne_true (short_not_wellFormed notOne ?_ ?_ ?_)
      · exact fun low high => absurd ⟨low, high⟩ notTwo
      · exact fun low high => absurd ⟨low, high⟩ notThree
      · simp
  | case8 first notOne second notTwo third notThree fourth rest inductionHypothesis =>
      rw [Bool.and_eq_true, decide_eq_true_eq, decide_eq_true_eq] at notTwo notThree
      have overlong : first = 0xf0 ↔ first.toNat = 0xf0 := BitVec.toNat_inj.symm
      have above : first = 0xf4 ↔ first.toNat = 0xf4 := BitVec.toNat_inj.symm
      simp only [Bool.and_eq_true, reader_isCont_iff, inductionHypothesis, Bool.not_eq_true',
        Bool.and_eq_false_imp, decide_eq_true_eq, decide_eq_false_iff_not, Nat.not_lt,
        Nat.not_le, overlong, above]
      by_cases four : 0xf0 ≤ first.toNat ∧ first.toNat < 0xf5
      · rw [numbers_cons, wellFormed_four four.1 four.2]
        constructor
        · rintro ⟨⟨⟨⟨⟨⟨_, cont⟩, next⟩, last⟩, least⟩, most⟩, behind⟩
          exact ⟨_, _, _, _, rfl, ⟨cont, next, last, least, most⟩, behind⟩
        · rintro ⟨_, _, _, _, same, ⟨cont, next, last, least, most⟩, behind⟩
          cases same
          exact ⟨⟨⟨⟨⟨⟨four, cont⟩, next⟩, last⟩, least⟩, most⟩, behind⟩
      · refine iff_of_false (fun holds => four holds.1.1.1.1.1.1)
          (short_not_wellFormed notOne ?_ ?_ ?_)
        · exact fun low high => absurd ⟨low, high⟩ notTwo
        · exact fun low high => absurd ⟨low, high⟩ notThree
        · exact fun low high => absurd ⟨low, high⟩ four

/-- The reader's test of a string is this validation. -/
theorem isValidUtf8_eq (bytes : List (BitVec 8)) :
    isValidUtf8 bytes = some (Binary.isValidUtf8 bytes) := by
  rcases isValidUtf8_tells bytes with ⟨valid, result, exact⟩
  rw [result, Option.some.injEq, Bool.eq_iff_iff, exact, reader_isValidUtf8_iff]

/-- The names that the reader takes are well-formed text. -/
theorem readStr_wellFormed {reader : Reader} {desc : String} {offset next : Nat} {name : Name}
    (read : reader.readStr desc offset = .ok (name, next)) : WellFormed (numbers name) := by
  rcases bind_ok.mp read with ⟨⟨length, start⟩, _, taken⟩
  dsimp only at taken
  split at taken
  · cases taken
  · split at taken
    · rename_i valid
      cases taken
      exact (reader_isValidUtf8_iff _).mp valid
    · cases taken

end Utf8

end Binary
end WasmSandboxing
