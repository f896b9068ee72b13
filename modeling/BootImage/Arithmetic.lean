/-!
# Arithmetic on words

A sum or a difference of machine words that is no word wraps around, or it stops the computation: `Arithmetic`
says which.  An operation gives no result where it stops.
-/

namespace BootImage

inductive Arithmetic
  | wrapping
  | checked
  deriving DecidableEq, Repr

namespace Arithmetic

def result {α : Type} (a : Arithmetic) (overflows : Bool) (value : α) : Option α :=
  if a = .checked ∧ overflows then none else some value

def add (a : Arithmetic) (x y : UInt32) : Option UInt32 :=
  a.result (x.toBitVec.uaddOverflow y.toBitVec) (x + y)

def sub (a : Arithmetic) (x y : UInt32) : Option UInt32 :=
  a.result (x.toBitVec.usubOverflow y.toBitVec) (x - y)

def addSize (a : Arithmetic) (x y : UInt64) : Option UInt64 :=
  a.result (x.toBitVec.uaddOverflow y.toBitVec) (x + y)

def subSize (a : Arithmetic) (x y : UInt64) : Option UInt64 :=
  a.result (x.toBitVec.usubOverflow y.toBitVec) (x - y)

end Arithmetic

end BootImage
