import OnePass.Machine.Register
import OnePass.Machine.Mnemonic
import OnePass.Source.Fault

/-! # Symbols

    What names mean.  The registers, the mnemonics and `label` are taken from
    the start and cannot be redefined; every other name is a label once it
    has been bound to an address.  Binding a label again replaces its address
    and keeps its place in the table. -/

namespace OnePass

/-- What a name stands for. -/
inductive Meaning where
  | register (r : Register)
  | operation (m : Mnemonic)
  /-- The directive that binds a label. -/
  | labelDirective
  /-- A label, by its address. -/
  | address (n : Nat)
  deriving DecidableEq, Repr

/-- Is the meaning fixed from the start? -/
def Meaning.isPredeclared : Meaning → Bool
  | address _ => false
  | _         => true

/-- The spelling of the label directive. -/
def labelDirectiveName : String := "label"

/-- The meaning of a name that is taken from the start. -/
def predeclared? (name : String) : Option Meaning :=
  match Register.ofName? name with
  | some r => some (.register r)
  | none   =>
    match Mnemonic.ofName? name with
    | some m => some (.operation m)
    | none   => if name = labelDirectiveName then some .labelDirective else none

/-- A bound label. -/
structure Label where
  name : String
  address : Nat
  deriving DecidableEq, Repr

/-- The labels bound so far, in the order in which each was first bound. -/
structure Symbols where
  labels : List Label := []
  deriving DecidableEq, Repr

namespace Symbols

/-- The address of a label. -/
def address? (t : Symbols) (name : String) : Option Nat :=
  (t.labels.find? (·.name == name)).map (·.address)

/-- The meaning of a name. -/
def meaning? (t : Symbols) (name : String) : Option Meaning :=
  match predeclared? name with
  | some m => some m
  | none   => (t.address? name).map .address

/-- Bind a label, without asking whether its name is taken. -/
def bind (t : Symbols) (name : String) (address : Nat) : Symbols :=
  if t.labels.any (·.name == name) then
    ⟨t.labels.map fun l => if l.name == name then { l with address } else l⟩
  else
    ⟨t.labels ++ [⟨name, address⟩]⟩

/-- Bind a label and tell the address it had before.  A name that is taken
    from the start is refused. -/
def define (t : Symbols) (name : String) (address : Nat) :
    Except Fault (Option Nat × Symbols) :=
  match predeclared? name with
  | some _ => .error (.predeclared name)
  | none   => .ok (t.address? name, t.bind name address)

/-- The labels bound to an address, in table order. -/
def labelsAt (t : Symbols) (address : Nat) : List Label :=
  t.labels.filter (·.address == address)

end Symbols

end OnePass
