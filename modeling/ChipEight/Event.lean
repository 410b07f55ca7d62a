import ChipEight.Keypad

/-!
What the user does at the keyboard. The sixteen keys lie on the left block of the keyboard:

    1 2 3 4        1 2 3 C
    Q W E R   as   4 5 6 D
    A S D F        7 8 9 E
    Z X C V        A 0 B F
-/

namespace ChipEight

inductive Event where
  | keyDown (code : Int)
  | keyUp (code : Int)
  | quit
  | other
  deriving DecidableEq

namespace Event

/-- The characters of the keyboard, each with the number of its key. -/
def layout : List (Char × Nat) :=
  [('1', 0x1), ('2', 0x2), ('3', 0x3), ('4', 0xC),
   ('q', 0x4), ('w', 0x5), ('e', 0x6), ('r', 0xD),
   ('a', 0x7), ('s', 0x8), ('d', 0x9), ('f', 0xE),
   ('z', 0xA), ('x', 0x0), ('c', 0xB), ('v', 0xF)]

/-- The key of a keyboard code, which is the code of the unshifted character. -/
def keyOf? (code : Int) : Option Nat :=
  (layout.find? fun (character, _) => (character.toNat : Int) = code).map Prod.snd

def escapeCode : Int := 27

def apply : Event → Step Keypad Unit
  | keyDown code =>
      match keyOf? code with
      | some key => Keypad.press key
      | none => pure ()
  | keyUp code =>
      match keyOf? code with
      | some key => Keypad.release key
      | none => pure ()
  | quit | other => pure ()

def applyAll : List Event → Step Keypad Unit
  | [] => pure ()
  | event :: rest => do
      event.apply
      applyAll rest

def goesOn : Event → Bool
  | quit => false
  | keyDown code => code != escapeCode
  | _ => true

end Event

end ChipEight
