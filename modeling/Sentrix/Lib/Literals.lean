import Mathlib.Data.Nat.Init

/-!
# Literals

A literal of an arbitrary field needs that it is at least two. For the literals that
thresholds and windows are made of, the proofs are named here: a definition that
compares with one holds a constant then, the same in every module.
-/

namespace Sentrix

instance atLeastTwo2 : Nat.AtLeastTwo 2 := ⟨by omega⟩
instance atLeastTwo3 : Nat.AtLeastTwo 3 := ⟨by omega⟩
instance atLeastTwo4 : Nat.AtLeastTwo 4 := ⟨by omega⟩
instance atLeastTwo5 : Nat.AtLeastTwo 5 := ⟨by omega⟩
instance atLeastTwo7 : Nat.AtLeastTwo 7 := ⟨by omega⟩
instance atLeastTwo9 : Nat.AtLeastTwo 9 := ⟨by omega⟩
instance atLeastTwo10 : Nat.AtLeastTwo 10 := ⟨by omega⟩
instance atLeastTwo15 : Nat.AtLeastTwo 15 := ⟨by omega⟩
instance atLeastTwo17 : Nat.AtLeastTwo 17 := ⟨by omega⟩
instance atLeastTwo19 : Nat.AtLeastTwo 19 := ⟨by omega⟩
instance atLeastTwo20 : Nat.AtLeastTwo 20 := ⟨by omega⟩
instance atLeastTwo23 : Nat.AtLeastTwo 23 := ⟨by omega⟩
instance atLeastTwo25 : Nat.AtLeastTwo 25 := ⟨by omega⟩
instance atLeastTwo40 : Nat.AtLeastTwo 40 := ⟨by omega⟩
instance atLeastTwo49 : Nat.AtLeastTwo 49 := ⟨by omega⟩
instance atLeastTwo50 : Nat.AtLeastTwo 50 := ⟨by omega⟩
instance atLeastTwo60 : Nat.AtLeastTwo 60 := ⟨by omega⟩
instance atLeastTwo120 : Nat.AtLeastTwo 120 := ⟨by omega⟩
instance atLeastTwo1000 : Nat.AtLeastTwo 1000 := ⟨by omega⟩
instance atLeastTwo5000 : Nat.AtLeastTwo 5000 := ⟨by omega⟩

end Sentrix
