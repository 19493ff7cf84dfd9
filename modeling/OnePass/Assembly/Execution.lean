import OnePass.Assembly.Operands
import OnePass.Assembly.State
import OnePass.Source.Reading

/-! # Executing statements

    Statements are executed strictly in source order, in one pass.  A label is
    bound to the current address when its statement is executed, so only
    labels bound further up are visible to a statement.

    * `Assembler` : a computation that changes an `Assembly` and may fail; a
      failure keeps the `Assembly` it was found in.
    * `place`, `define`, `execute`, `executeAll`, `assemble` : from a single
      instruction to a whole source text. -/

namespace OnePass

/-- Computations on an assembly in progress. -/
abbrev Assembler := EStateM SourceFault Assembly

namespace Assembler

/-- Append the instruction of a mnemonic on given arguments, and give its
    address. -/
def place (pos : Position) (m : Mnemonic) (args : List Argument) : Assembler Nat := fun s =>
  match s.symbols.instruction m args with
  | .error f      => .error ⟨pos, f⟩ s
  | .ok (i, lost) => .ok s.image.here (s.withInstruction pos i lost)

/-- Bind a label to the current address, and give that address. -/
def define (pos : Position) (name : String) : Assembler Nat := fun s =>
  match s.symbols.define name s.image.here with
  | .error f              => .error ⟨pos, f⟩ s
  | .ok (before, symbols) => .ok s.image.here (s.withLabel pos name before symbols)

/-- Execute a `label` statement on given arguments. -/
def executeLabel (pos : Position) (args : List Argument) : Assembler Unit :=
  match args with
  | [.text name] => discard (define pos name)
  | [other]      => throw ⟨pos, .labelNameExpected other.render⟩
  | args         => throw ⟨pos, .argumentCount labelDirectiveName 1 args.length⟩

/-- Execute one statement. -/
def execute (st : Statement) : Assembler Unit := fun s =>
  match s.symbols.meaning? st.name with
  | some (.operation m)  => discard (place st.position m st.arguments) s
  | some .labelDirective => executeLabel st.position st.arguments s
  | some _               => .error ⟨st.position, .notCallable st.name⟩ s
  | none                 => .error ⟨st.position, .undefined st.name⟩ s

/-- Execute statements in order, up to the first that fails. -/
def executeAll (ss : List Statement) : Assembler Unit :=
  ss.forM execute

/-- Assemble a source text.  It is read as a whole before any statement is
    executed. -/
def assemble (file source : String) : Assembler Unit :=
  match readSource file source with
  | .error f => throw f
  | .ok ss   => executeAll ss

end Assembler

end OnePass
