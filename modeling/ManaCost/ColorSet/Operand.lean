import ManaCost.ColorSet.Catalog

namespace ManaCost

/-!
# Combining color sets

A color set is combined with any number of operands, each of which is a color, a color set or a
list of colors.  All operands together make one mask, sets are combined by their masks, and what
comes out is looked up as a mask again.
-/

/-- The bits of a mask that a number has too.  A negative number lacks finitely many bits, those of
its complement, and has all others. -/
def commonBits
    (mask : Nat) :
    Int → Nat
  | .ofNat bits => mask &&& bits
  | .negSucc missing => mask ^^^ (mask &&& missing)

namespace ColorSet

/-- One or several colors, as they are combined with a set. -/
inductive Operand where
  | one (color : Color)
  | all (set : ColorSet)
  | several (colors : List Color)

namespace Operand

/-- The colors of an operand. -/
def colors : Operand → ColorSet
  | .one color => single color
  | .all set => set
  | .several colors => ofList colors

/-- The colors of all operands together. -/
def union
    (operands : List Operand) :
    ColorSet :=
  unionAll (operands.map colors)

/-- A mask with the bits of an operand set too. -/
def addTo
    (mask : Nat) :
    Operand → Nat
  | .one color => mask ||| color.bit
  | .all set => mask ||| set.mask
  | .several colors => colors.foldl (fun bits color => bits ||| color.bit) mask

/-- The mask of all operands together. -/
def mask
    (operands : List Operand) :
    Nat :=
  operands.foldl addTo 0

end Operand

/-- The set of exactly the colors of the operands.  One set alone is that set. -/
def ofOperands : List Operand → Except Fault ColorSet
  | [.all set] => .ok set
  | operands => ofMask (Operand.mask operands)

/-- A set with the colors of the operands. -/
def plus
    (set : ColorSet)
    (operands : List Operand) :
    Except Fault ColorSet :=
  ofMask ((set.mask ||| Operand.mask operands : Nat))

/-- A set without the colors of the operands. -/
def minus
    (set : ColorSet)
    (operands : List Operand) :
    Except Fault ColorSet :=
  ofMask (commonBits set.mask (~~~(Operand.mask operands : Int)))

/-- The colors of a set that are among those of the operands. -/
def intersection
    (set : ColorSet)
    (operands : List Operand) :
    Except Fault ColorSet :=
  ofMask (commonBits set.mask (Operand.mask operands))

/-- A set has every color of an operand. -/
def isSupersetOf
    (set : ColorSet)
    (operand : Operand) :
    Bool :=
  let bits := Operand.mask [operand]
  commonBits set.mask bits == bits

/-- A set has no color but those of an operand. -/
def isSubsetOf
    (set : ColorSet)
    (operand : Operand) :
    Bool :=
  commonBits set.mask (~~~(Operand.mask [operand] : Int)) == 0

end ColorSet

end ManaCost
