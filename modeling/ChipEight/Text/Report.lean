/-!
How the machine and its parts are told in text: numbers in hexadecimal, lower case, and the
spellings that their reports share.
-/

namespace ChipEight

namespace Hex

/-- The hexadecimal digits of a number, without leading zeros. -/
def digits (n : Nat) : List Char :=
  Nat.toDigits 16 n

/-- Zeros in front, up to a width. -/
def padLeft (width : Nat) (text : List Char) : List Char :=
  List.replicate (width - text.length) '0' ++ text

/-- An integer in at least `width` characters, of which a minus sign is one. -/
def padded (width : Nat) : Int → String
  | .ofNat n => String.ofList (padLeft width (digits n))
  | .negSucc n => String.ofList ('-' :: padLeft (width - 1) (digits (n + 1)))

/-- An integer with its sign, the mark `0x` and no padding. -/
def literal : Int → String
  | .ofNat n => String.ofList ('0' :: 'x' :: digits n)
  | .negSucc n => String.ofList ('-' :: '0' :: 'x' :: digits (n + 1))

/-- Padding goes in front of the last digit. -/
theorem padLeft_digits_succ {width : Nat} (hwidth : 0 < width) (n : Nat) :
    padLeft (width + 1) (digits n) = padLeft width (digits (n / 16)) ++ [(n % 16).digitChar] := by
  by_cases hsmall : n < 16
  · obtain ⟨rest, rfl⟩ : ∃ rest, width = rest + 1 := ⟨width - 1, by omega⟩
    have hzero : digits 0 = ['0'] := rfl
    rw [Nat.div_eq_of_lt hsmall, Nat.mod_eq_of_lt hsmall, digits, Nat.toDigits_of_lt_base hsmall,
      hzero, padLeft, padLeft]
    simp [List.replicate_succ']
  · have hlast : digits n = digits (n / 16) ++ [(n % 16).digitChar] :=
      Nat.toDigits_of_base_le (by decide) (Nat.le_of_not_lt hsmall)
    rw [hlast, padLeft, padLeft, List.length_append, List.length_singleton,
      Nat.add_sub_add_right, List.append_assoc]

theorem padLeft_digits {width n : Nat} (hwidth : 0 < width) (hn : n < Nat.pow 16 width) :
    padLeft width (digits n)
      = (List.range width).map fun k => (n / Nat.pow 16 (width - 1 - k) % 16).digitChar := by
  simp only [Nat.pow_eq] at hn ⊢
  induction width generalizing n with
  | zero => exact absurd hwidth (Nat.lt_irrefl 0)
  | succ width ih =>
      by_cases hfirst : width = 0
      · subst hfirst
        have hsmall : n < 16 := hn
        rw [digits, Nat.toDigits_of_lt_base hsmall, padLeft]
        simp [Nat.mod_eq_of_lt hsmall]
      · have hrest : n / 16 < 16 ^ width :=
          Nat.div_lt_of_lt_mul (by rwa [Nat.mul_comm, ← Nat.pow_succ])
        have hpositive : 0 < width := Nat.pos_of_ne_zero hfirst
        rw [padLeft_digits_succ hpositive, ih hpositive hrest, List.range_succ, List.map_append,
          List.map_singleton, Nat.add_sub_cancel, Nat.sub_self, Nat.pow_zero, Nat.div_one]
        congr 1
        apply List.map_congr_left
        intro k hk
        have hk' : k < width := List.mem_range.mp hk
        have hplace : width - k = width - 1 - k + 1 := by omega
        rw [hplace, Nat.pow_succ, Nat.mul_comm, Nat.div_div_eq_div_mul]

/-- A number that has no more digits than asked for is told by exactly so many, the highest first.
-/
theorem toList_padded {width n : Nat} (hwidth : 0 < width) (hn : n < Nat.pow 16 width) :
    (padded width n).toList
      = (List.range width).map fun k => (n / Nat.pow 16 (width - 1 - k) % 16).digitChar :=
  String.toList_ofList.trans (padLeft_digits hwidth hn)

example : padded 4 0x1F0 = "01f0" := by decide

end Hex

namespace Report

def listed (items : List String) : String :=
  "[" ++ ", ".intercalate items ++ "]"

def quoted (items : List String) : String :=
  listed (items.map fun item => s!"'{item}'")

def truth (value : Bool) : String :=
  if value then "True" else "False"

/-- The number of something, or the word for nothing. -/
def numberOrNone : Option Int → String
  | none => "None"
  | some number => toString number

end Report

end ChipEight
