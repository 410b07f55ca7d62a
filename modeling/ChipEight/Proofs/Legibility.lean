import ChipEight.Proofs.Assembly
import ChipEight.Text.Report

/-!
Texts that can be read back when they stand in a longer one. A text ends before the first character
that cannot belong to it; numbers are read from their digits, and lists between their brackets item
by item.
-/

namespace ChipEight

/-! ### Cutting a text out of a longer one -/

/-- What follows a text cannot belong to it. -/
def Ends (inside : Char → Bool) (rest : String) : Prop :=
  rest.toList.head?.all (!inside ·) = true

instance (inside : Char → Bool) (rest : String) : Decidable (Ends inside rest) :=
  inferInstanceAs (Decidable (_ = true))

/-- Whatever follows, as long as it cannot belong to the text, the text tells a value and where it
ends. -/
def Tells {α β : Type} (inside : Char → Bool) (text : α → String) (value : α → β) : Prop :=
  ∀ ⦃a a' : α⦄ ⦃rest rest' : String⦄, Ends inside rest → Ends inside rest' →
    text a ++ rest = text a' ++ rest' → value a = value a' ∧ rest = rest'

/-- A text that shows its own end tells a value, whatever follows. -/
abbrev TellsAlone {α β : Type} (text : α → String) (value : α → β) : Prop :=
  Tells (fun _ => false) text value

theorem takeWhile_toList_append {inside : Char → Bool} {text rest : String}
    (htext : ∀ c ∈ text.toList, inside c = true) (hrest : Ends inside rest) :
    (text ++ rest).toList.takeWhile inside = text.toList := by
  rw [String.toList_append, List.takeWhile_append_of_pos htext]
  have hnone : rest.toList.takeWhile inside = [] := by
    unfold Ends at hrest
    cases hlist : rest.toList with
    | nil => rfl
    | cons c tail =>
        rw [hlist] at hrest
        exact List.takeWhile_cons_of_neg (by simpa using hrest)
  rw [hnone, List.append_nil]

theorem ends_append {inside : Char → Bool} {separator : String} (hseparator : separator ≠ "")
    (hends : Ends inside separator) (rest : String) : Ends inside (separator ++ rest) := by
  have hne : separator.toList ≠ [] := by simpa using hseparator
  unfold Ends at *
  rw [String.toList_append, List.head?_append_of_ne_nil _ hne]
  exact hends

namespace Tells

variable {α β γ : Type} {inside : Char → Bool} {text : α → String} {value : α → β}

/-- A text of characters that belong to it is cut out by the first that does not. -/
theorem of_inside (hinside : ∀ a, ∀ c ∈ (text a).toList, inside c = true)
    (hvalue : ∀ a a', text a = text a' → value a = value a') : Tells inside text value := by
  intro a a' rest rest' hrest hrest' heq
  have htext : text a = text a' := by
    apply String.toList_inj.mp
    rw [← takeWhile_toList_append (hinside a) hrest, heq,
      takeWhile_toList_append (hinside a') hrest']
  rw [htext, String.append_right_inj] at heq
  exact ⟨hvalue a a' htext, heq⟩

/-- A field between its label and the separator that follows it. -/
theorem cut (htext : Tells inside text value) {a a' : α} {label separator rest rest' : String}
    (hseparator : separator ≠ "" ∧ Ends inside separator)
    (heq : label ++ (text a ++ (separator ++ rest)) = label ++ (text a' ++ (separator ++ rest'))) :
    value a = value a' ∧ separator ++ rest = separator ++ rest' :=
  htext (ends_append hseparator.1 hseparator.2 rest) (ends_append hseparator.1 hseparator.2 rest')
    ((String.append_right_inj label).mp heq)

theorem imp {value' : α → γ} (htext : Tells inside text value)
    (h : ∀ a a', value a = value a' → value' a = value' a') : Tells inside text value' := by
  intro a a' rest rest' hrest hrest' heq
  obtain ⟨hvalue, hbehind⟩ := htext hrest hrest' heq
  exact ⟨h a a' hvalue, hbehind⟩

end Tells

/-! ### Numbers and their texts -/

def digitValue (c : Char) : Nat :=
  if c.isDigit then c.toNat - '0'.toNat else 10 + (c.toNat - 'a'.toNat)

/-- The number that digits write in a base. -/
def valueOf (base : Nat) (digits : List Char) : Nat :=
  digits.foldl (fun value c => base * value + digitValue c) 0

/-- The integer that a text holds, whatever marks it and however many zeros lead it. -/
def numberIn (base : Nat) (text : String) : Int :=
  let value := valueOf base (text.toList.filter isNumeral)
  if '-' ∈ text.toList then -(value : Int) else value

theorem valueOf_append_digit (base : Nat) (digits : List Char) (c : Char) :
    valueOf base (digits ++ [c]) = base * valueOf base digits + digitValue c := by
  rw [valueOf, List.foldl_append]
  rfl

theorem valueOf_zero_cons (base : Nat) (digits : List Char) :
    valueOf base ('0' :: digits) = valueOf base digits := by
  have hzero : base * 0 + digitValue '0' = 0 := rfl
  rw [valueOf, List.foldl_cons, hzero, valueOf]

theorem valueOf_zeros_append (base count : Nat) (digits : List Char) :
    valueOf base (List.replicate count '0' ++ digits) = valueOf base digits := by
  induction count with
  | zero => rfl
  | succ count ih => rw [List.replicate_succ, List.cons_append, valueOf_zero_cons, ih]

section Digits

variable {base : Nat} (hbase : 1 < base) (hlow : base ≤ 16)
include hbase hlow

theorem valueOf_toDigits (n : Nat) : valueOf base (Nat.toDigits base n) = n := by
  have hdigit : ∀ d < 16, digitValue d.digitChar = d := by decide
  induction n using Nat.strongRecOn with
  | ind n ih =>
      by_cases hsmall : n < base
      · rw [Nat.toDigits_of_lt_base hsmall, valueOf, List.foldl_cons, List.foldl_nil,
          hdigit n (by omega), Nat.mul_zero, Nat.zero_add]
      · have hlast : n % base < 16 := Nat.lt_of_lt_of_le (Nat.mod_lt n (by omega)) hlow
        rw [Nat.toDigits_of_base_le hbase (by omega), valueOf_append_digit,
          ih _ (Nat.div_lt_self (by omega) hbase), hdigit _ hlast, Nat.div_add_mod]

theorem isNumeral_of_mem_toDigits (n : Nat) : ∀ c ∈ Nat.toDigits base n, isNumeral c = true := by
  intro c hc
  have hnone := List.filter_eq_nil_iff.mp (filter_toDigits hbase hlow n) c hc
  simpa using hnone

theorem filter_numeral_toDigits (n : Nat) :
    (Nat.toDigits base n).filter isNumeral = Nat.toDigits base n :=
  List.filter_eq_self.mpr (isNumeral_of_mem_toDigits hbase hlow n)

theorem minus_not_mem_toDigits (n : Nat) : '-' ∉ Nat.toDigits base n := by
  intro hmem
  have hminus : isNumeral '-' = false := by decide
  have hnumeral := isNumeral_of_mem_toDigits hbase hlow n '-' hmem
  rw [hminus] at hnumeral
  cases hnumeral

end Digits

/-- Whether a character can belong to a number that is written with some marks. -/
def isPartOf (marks : List Char) (c : Char) : Bool :=
  marks.contains c || isNumeral c

/-- A text writes an integer: some of the given marks, with a minus sign if it is negative, and then
its digits. -/
def Spells (base : Nat) (marks : List Char) (n : Int) (text : String) : Prop :=
  ∃ lead, text = String.ofList (lead ++ Nat.toDigits base n.natAbs) ∧
    (∀ c ∈ lead, c ∈ marks) ∧ ('-' ∈ lead ↔ n < 0)

theorem spells_toString (n : Int) : Spells 10 ['-'] n (toString n) := by
  cases n with
  | ofNat n => exact ⟨[], rfl, by simp, by simp⟩
  | negSucc n =>
      refine ⟨['-'], ?_, by simp, by simp [Int.negSucc_lt_zero]⟩
      apply String.toList_inj.mp
      have htext : toString (Int.negSucc n) = "-" ++ toString (n + 1) := rfl
      rw [htext, String.toList_append, Nat.toString_eq_ofList_toDigits]
      simp only [String.toList_ofList]
      rfl

theorem spells_toString_natCast (n : Nat) : Spells 10 ['-'] n (toString n) :=
  spells_toString n

theorem spells_padded (width : Nat) (n : Int) :
    Spells 16 ['-', '0', 'x'] n (Hex.padded width n) := by
  cases n with
  | ofNat n =>
      refine ⟨List.replicate (width - (Hex.digits n).length) '0', rfl, ?_, ?_⟩
      · simp +contextual [List.mem_replicate]
      · simp [List.mem_replicate]
  | negSucc n =>
      refine ⟨'-' :: List.replicate (width - 1 - (Hex.digits (n + 1)).length) '0', rfl, ?_, ?_⟩
      · simp +contextual [List.mem_replicate]
      · simp [Int.negSucc_lt_zero]

theorem spells_literal (n : Int) : Spells 16 ['-', '0', 'x'] n (Hex.literal n) := by
  cases n with
  | ofNat n => exact ⟨['0', 'x'], rfl, by simp, by simp⟩
  | negSucc n => exact ⟨['-', '0', 'x'], rfl, by simp, by simp [Int.negSucc_lt_zero]⟩

namespace Spells

variable {base : Nat} {marks : List Char} {n : Int} {text : String}

/-- What stands in front of the digits counts for nothing but the sign. -/
theorem numberIn_eq (hbase : 1 < base) (hlow : base ≤ 16)
    (hmarks : ∀ c ∈ marks, isNumeral c = true → c = '0') (hspells : Spells base marks n text) :
    numberIn base text = n := by
  obtain ⟨lead, rfl, hlead, hminus⟩ := hspells
  have hzeros : lead.filter isNumeral = List.replicate (lead.filter isNumeral).length '0' := by
    rw [List.eq_replicate_iff]
    refine ⟨rfl, fun c hc => ?_⟩
    obtain ⟨hmem, hnumeral⟩ := List.mem_filter.mp hc
    exact hmarks c (hlead c hmem) hnumeral
  have hvalue :
      valueOf base ((lead ++ Nat.toDigits base n.natAbs).filter isNumeral) = n.natAbs := by
    rw [List.filter_append, hzeros, valueOf_zeros_append, filter_numeral_toDigits hbase hlow,
      valueOf_toDigits hbase hlow]
  have hsign : '-' ∈ lead ++ Nat.toDigits base n.natAbs ↔ n < 0 := by
    rw [List.mem_append, or_iff_left (minus_not_mem_toDigits hbase hlow _), hminus]
  simp only [numberIn, String.toList_ofList, hvalue, hsign]
  split
  · omega
  · omega

theorem mem_or_isNumeral (hbase : 1 < base) (hlow : base ≤ 16)
    (hspells : Spells base marks n text) : ∀ c ∈ text.toList, c ∈ marks ∨ isNumeral c = true := by
  obtain ⟨lead, rfl, hlead, -⟩ := hspells
  intro c hc
  rw [String.toList_ofList, List.mem_append] at hc
  exact hc.imp (hlead c) (isNumeral_of_mem_toDigits hbase hlow n.natAbs c)

theorem not_ends (hbase : 1 < base) (hlow : base ≤ 16) (hspells : Spells base marks n text) :
    ¬Ends (isPartOf marks) text := by
  have hinside := hspells.mem_or_isNumeral hbase hlow
  obtain ⟨lead, rfl, -, -⟩ := hspells
  rw [String.toList_ofList] at hinside
  cases hlist : lead ++ Nat.toDigits base n.natAbs with
  | nil => exact absurd (List.append_eq_nil_iff.mp hlist).2 Nat.toDigits_ne_nil
  | cons c tail =>
      have hc := hinside c (hlist ▸ List.mem_cons_self)
      simpa [Ends, isPartOf, or_iff_not_imp_left] using hc

theorem tells {α : Type} {text : α → String} {number : α → Int} (hbase : 1 < base ∧ base ≤ 16)
    (hmarks : ∀ c ∈ marks, isNumeral c = true → c = '0')
    (hspells : ∀ a, Spells base marks (number a) (text a)) :
    Tells (isPartOf marks) text number := by
  refine .of_inside (fun a c hc => ?_) fun a a' heq => ?_
  · simpa [isPartOf] using (hspells a).mem_or_isNumeral hbase.1 hbase.2 c hc
  · rw [← (hspells a).numberIn_eq hbase.1 hbase.2 hmarks, heq,
      (hspells a').numberIn_eq hbase.1 hbase.2 hmarks]

end Spells

/-! ### Lists -/

namespace Report

/-- What stands behind an item of a list, up to the bracket that closes it. -/
def remainder : List String → String
  | [] => "]"
  | item :: rest => ", " ++ (item ++ remainder rest)

theorem listed_cons (item : String) (rest : List String) :
    listed (item :: rest) = "[" ++ (item ++ remainder rest) := by
  have hclosed : ", ".intercalate (item :: rest) ++ "]" = item ++ remainder rest := by
    induction rest generalizing item with
    | nil => rw [String.intercalate_singleton, remainder]
    | cons next rest ih =>
        rw [String.intercalate_cons_cons, String.append_assoc, String.append_assoc, ih, remainder]
  rw [listed, String.append_assoc, hclosed]

theorem listed_cons_append (item : String) (items : List String) (rest : String) :
    listed (item :: items) ++ rest = "[" ++ (item ++ (remainder items ++ rest)) := by
  rw [listed_cons, String.append_assoc, String.append_assoc]

theorem listed_nil_append (rest : String) : listed [] ++ rest = "[" ++ ("]" ++ rest) :=
  String.append_assoc

variable {α : Type} {inside : Char → Bool} {text : α → String}

theorem ends_remainder (hclose : inside ',' = false ∧ inside ']' = false) (items : List String)
    (rest : String) : Ends inside (remainder items ++ rest) := by
  cases items with
  | nil => simp [Ends, remainder, hclose.2]
  | cons item items => simp [Ends, remainder, hclose.1]

theorem tells_remainder (htext : Tells inside text id)
    (hclose : inside ',' = false ∧ inside ']' = false) :
    TellsAlone (fun items : List α => remainder (items.map text)) id := by
  intro items items' rest rest' _ _ heq
  induction items generalizing items' with
  | nil =>
      cases items' with
      | nil => exact ⟨rfl, (String.append_right_inj "]").mp heq⟩
      | cons item' items' =>
          have hhead := congrArg (·.toList.head?) heq
          simp [remainder] at hhead
  | cons item items ih =>
      cases items' with
      | nil =>
          have hhead := congrArg (·.toList.head?) heq
          simp [remainder] at hhead
      | cons item' items' =>
          simp only [List.map_cons, remainder, String.append_assoc] at heq
          obtain ⟨hitem, hrest⟩ := htext (ends_remainder hclose _ rest)
            (ends_remainder hclose _ rest') ((String.append_right_inj ", ").mp heq)
          obtain ⟨hitems, hrest⟩ := ih hrest
          exact ⟨congrArg₂ List.cons hitem hitems, hrest⟩

/-- A list of texts that never begin with its closing bracket tells its items. -/
theorem tells_listed (htext : Tells inside text id) (hstart : ∀ a, ¬Ends inside (text a))
    (hclose : inside ',' = false ∧ inside ']' = false) :
    TellsAlone (fun items : List α => listed (items.map text)) id := by
  have hbracket : ∀ (item : α) (behind rest : String), "]" ++ rest ≠ text item ++ behind := by
    intro item behind rest heq
    have hends : Ends inside ("]" ++ rest) := by simp [Ends, hclose.2]
    refine hstart item ?_
    rw [heq] at hends
    cases hlist : (text item).toList with
    | nil => simp [Ends, hlist]
    | cons c tail => simpa [Ends, hlist] using hends
  intro items items' rest rest' hrest hrest' heq
  simp only at heq
  cases items with
  | nil =>
      cases items' with
      | nil => exact ⟨rfl, (String.append_right_inj (listed [])).mp heq⟩
      | cons item' items' =>
          rw [List.map_nil, listed_nil_append, List.map_cons, listed_cons_append,
            String.append_right_inj] at heq
          exact absurd heq (hbracket item' _ rest)
  | cons item items =>
      cases items' with
      | nil =>
          rw [List.map_nil, listed_nil_append, List.map_cons, listed_cons_append,
            String.append_right_inj] at heq
          exact absurd heq.symm (hbracket item _ rest')
      | cons item' items' =>
          rw [List.map_cons, List.map_cons, listed_cons_append, listed_cons_append,
            String.append_right_inj] at heq
          refine tells_remainder htext hclose hrest hrest' ?_
          simp only [List.map_cons, remainder, String.append_assoc, heq]

end Report

end ChipEight
