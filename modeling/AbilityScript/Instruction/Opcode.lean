import AbilityScript.Instruction.Coded

/-!
# Opcodes

The fourteen instructions a card ability is written in. Five of them delimit blocks: `IF … ELSE …
ENDIF` around conditional parts, `WHEN … ENDWHEN` around what an event triggers.
-/

set_option autoImplicit false

namespace AbilityScript

/-- What an instruction does. -/
inductive Opcode where
  | damage
  | heal
  | buffStat
  | debuffStat
  | draw
  | discard
  | createToken
  | destroy
  | ifTest
  | elseMark
  | endIf
  | whenEvent
  | endWhen
  | stop
deriving DecidableEq, Repr

namespace Opcode

instance : Labelled Opcode where
  count := 14
  count_pos := by decide
  count_le := by decide
  index
    | .damage => 0
    | .heal => 1
    | .buffStat => 2
    | .debuffStat => 3
    | .draw => 4
    | .discard => 5
    | .createToken => 6
    | .destroy => 7
    | .ifTest => 8
    | .elseMark => 9
    | .endIf => 10
    | .whenEvent => 11
    | .endWhen => 12
    | .stop => 13
  ofIndex
    | 0 => .damage
    | 1 => .heal
    | 2 => .buffStat
    | 3 => .debuffStat
    | 4 => .draw
    | 5 => .discard
    | 6 => .createToken
    | 7 => .destroy
    | 8 => .ifTest
    | 9 => .elseMark
    | 10 => .endIf
    | 11 => .whenEvent
    | 12 => .endWhen
    | 13 => .stop
  ofIndex_index a := by cases a <;> rfl
  index_ofIndex := by decide
  label
    | .damage => "DAMAGE"
    | .heal => "HEAL"
    | .buffStat => "BUFF_STAT"
    | .debuffStat => "DEBUFF_STAT"
    | .draw => "DRAW"
    | .discard => "DISCARD"
    | .createToken => "CREATE_TOKEN"
    | .destroy => "DESTROY"
    | .ifTest => "IF"
    | .elseMark => "ELSE"
    | .endIf => "ENDIF"
    | .whenEvent => "WHEN"
    | .endWhen => "ENDWHEN"
    | .stop => "END"
  label_injective a b := by cases a <;> cases b <;> decide

/-- The longer word that may stand for a block delimiter in source text. It is never printed. -/
def longName? : Opcode → Option String
  | .ifTest => some "COND_START"
  | .elseMark => some "COND_ELSE"
  | .endIf => some "COND_END"
  | .whenEvent => some "TRIGGER_START"
  | .endWhen => some "TRIGGER_END"
  | _ => none

/-- Whether a word stands for the opcode: its label or its longer name, letter for letter. -/
def IsNamed (op : Opcode) (t : Text) : Prop :=
  Labelled.name op = t ∨ op.longName?.map String.toList = some t

instance (op : Opcode) (t : Text) : Decidable (op.IsNamed t) :=
  inferInstanceAs (Decidable (_ ∨ _))

/-- The opcode that a word of source text stands for. -/
def ofMnemonic? (t : Text) : Option Opcode :=
  (ByteCoded.all Opcode).find? fun op => op.IsNamed t

/-- The bytes reserved for one side of a comparison: a kind and up to two more. -/
def sideBytes : Nat := 3

/-- The number of bytes that have to follow an opcode. A comparison with a constant needs fewer bytes
than `IF` reserves for it. -/
def argCount : Opcode → Nat
  | .damage | .heal => 2
  | .buffStat | .debuffStat => 3
  | .draw | .discard | .createToken | .destroy | .whenEvent => 1
  | .ifTest => 1 + sideBytes + sideBytes
  | .elseMark | .endIf | .endWhen | .stop => 0

end Opcode

end AbilityScript
