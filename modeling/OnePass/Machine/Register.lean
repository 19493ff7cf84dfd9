/-! # Registers

    The sixteen general registers `r0` to `r15`.  A register is its four-bit
    index; its name is looked up in one table. -/

namespace OnePass

/-- One of the sixteen registers. -/
structure Register where
  /-- The index by which instructions refer to it. -/
  index : BitVec 4
  deriving DecidableEq, Repr

namespace Register

/-- The names of the registers, by index. -/
def names : List String :=
  ["r0", "r1", "r2", "r3", "r4", "r5", "r6", "r7",
   "r8", "r9", "r10", "r11", "r12", "r13", "r14", "r15"]

@[simp] theorem length_names : names.length = 16 := rfl

/-- The register that the low four bits of `n` select. -/
def ofNibble (n : Nat) : Register :=
  ⟨BitVec.ofNat 4 n⟩

/-- The name of a register. -/
def name (r : Register) : String :=
  names.get ⟨r.index.toNat, by simpa using r.index.isLt⟩

/-- The register of a given name. -/
def ofName? (text : String) : Option Register :=
  (names.idxOf? text).map ofNibble

/-- A register's name leads back to it. -/
theorem ofName?_name (r : Register) : ofName? r.name = some r := by
  have h : ∀ i : BitVec 4, ofName? (name ⟨i⟩) = some ⟨i⟩ := by decide
  exact h r.index

/-- A text that names no register. -/
structure Unknown where
  text : String
  deriving DecidableEq, Repr

def Unknown.message (u : Unknown) : String :=
  "Unknown reg name: " ++ u.text

/-- The register of a given name, or the text that named none. -/
def parse (text : String) : Except Unknown Register :=
  match ofName? text with
  | some r => .ok r
  | none   => .error ⟨text⟩

end Register

end OnePass
