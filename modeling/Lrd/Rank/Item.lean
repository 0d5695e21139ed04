import Mathlib.Logic.Basic

/-!
# Items and signals

The ranking candidates the daemon holds and the signal a client sends with a
request, as in `rank/item.hpp` and `rank/signal.hpp`. The type of `double` is a
parameter throughout.
-/

namespace Lrd

/-- A `std::string`: any bytes at all. -/
abbrev Bytes : Type := List UInt8

/-- The bytes of a string literal. -/
def text (literal : String) : Bytes := literal.toUTF8.data.toList

variable {D : Type}

namespace Rank

/-- The ids under which items are published. -/
abbrev ItemId : Type := UInt64

/-- A wall-clock instant, in milliseconds since the epoch. -/
structure Timestamp where
  millis : Int64
deriving DecidableEq, Repr

/-- An instant as the wire has it. -/
def toEpochMillis (instant : Timestamp) : Int64 := instant.millis

/-- An instant as the wire gave it. -/
def fromEpochMillis (millis : Int64) : Timestamp := ⟨millis⟩

/-- What is recommended. -/
structure Item (D : Type) where
  id : ItemId
  category : Bytes
  advertiser : Bytes
  baseScore : D
  createdAt : Timestamp
  expiresAt : Timestamp
deriving DecidableEq, Repr

/-- The value-initialised item, given what `0.0` is. -/
def Item.empty (zero : D) : Item D := ⟨0, [], [], zero, ⟨0⟩, ⟨0⟩⟩

/-- The epoch stands for "no expiry". -/
def Item.neverExpires (item : Item D) : Bool := item.expiresAt.millis == 0

/-- One entry of a slate. -/
structure RankedItem (D : Type) where
  id : ItemId
  score : D
  category : Bytes
  advertiser : Bytes
deriving DecidableEq, Repr

/-- What a slate entry copies from an item besides its score. -/
def Item.label (item : Item D) : ItemId × Bytes × Bytes :=
  (item.id, item.category, item.advertiser)

/-- What the slate copies from an item. -/
def RankedItem.label (ranked : RankedItem D) : ItemId × Bytes × Bytes :=
  (ranked.id, ranked.category, ranked.advertiser)

/-- How much a user cares for a category. -/
structure CategoryAffinity (D : Type) where
  category : Bytes
  weight : D
deriving DecidableEq, Repr

/-- What a client tells about its user. -/
structure UserSignal (D : Type) where
  affinities : List (CategoryAffinity D)
  excludedCategories : List Bytes
deriving DecidableEq, Repr

/-- The weight of the first affinity for the category, or the fallback. -/
def UserSignal.affinityFor (signal : UserSignal D) (category : Bytes) (fallback : D) :
    D :=
  match signal.affinities.find? fun entry => entry.category == category with
  | some entry => entry.weight
  | none => fallback

/-- Whether the user does not want to see a category. -/
def UserSignal.excludes (signal : UserSignal D) (category : Bytes) : Bool :=
  signal.excludedCategories.contains category

end Rank

end Lrd
