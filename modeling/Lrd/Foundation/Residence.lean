import Mathlib.Data.Finset.Card
import Mathlib.Data.List.Infix

/-!
# Which keys stay resident

A list of distinct keys, most recently used first, with a bounded number of places: a
use moves its key to the front and costs the end of a full list its place, and a key may
be dropped. Between a use of a key and the next time that key is touched, the keys ahead
of it are those that were used and not dropped since (`crowd`), so that it is still
resident exactly when they never filled all places (`mem_residents_iff`).
-/

namespace Foundation

/-- What happens to a key. -/
inductive Touch (κ : Type) where
  | use (key : κ)
  | drop (key : κ)
deriving DecidableEq

namespace Touch

variable {κ : Type}

/-- The key that is touched. -/
def key : Touch κ → κ
  | use key => key
  | drop key => key

variable [DecidableEq κ]

/-- A use moves its key to the front of the places there are. -/
def apply (room : Nat) (keys : List κ) : Touch κ → List κ
  | use key => (key :: keys.filter (· ≠ key)).take room
  | drop key => keys.filter (· ≠ key)

/-- Which other keys are in use, after those that were. -/
def join (others : Finset κ) : Touch κ → Finset κ
  | use key => insert key others
  | drop key => others.erase key

end Touch

variable {κ : Type} [DecidableEq κ] {room : Nat} {keys : List κ} {key : κ} {others : Finset κ}

/-- The keys that are resident after a sequence of touches. -/
def residents (room : Nat) (touches : List (Touch κ)) : List κ :=
  touches.foldl (Touch.apply room) []

/-- The keys that were used and not dropped since. -/
def crowd (touches : List (Touch κ)) : Finset κ := touches.foldl Touch.join ∅

theorem crowd_snoc (touches : List (Touch κ)) (touch : Touch κ) :
    crowd (touches ++ [touch]) = touch.join (crowd touches) :=
  List.foldl_append ..

/-! ## One touch -/

/-- A touch names no key twice. -/
theorem nodup_apply (nodup : keys.Nodup) (touch : Touch κ) : (touch.apply room keys).Nodup := by
  cases touch with
  | use other =>
      refine List.Nodup.sublist (List.take_sublist _ _) (List.nodup_cons.mpr ⟨?_, nodup.filter _⟩)
      exact fun member => of_decide_eq_true (List.mem_filter.mp member).2 rfl
  | drop other => exact nodup.filter _

/-- Touching other keys does not bring a key back. -/
theorem not_mem_apply (absent : key ∉ keys) {touch : Touch κ} (other : touch.key ≠ key) :
    key ∉ touch.apply room keys := by
  cases touch with
  | use used =>
      intro member
      rcases List.mem_cons.mp (List.mem_of_mem_take member) with same | kept
      · exact other same.symm
      · exact absent (List.mem_of_mem_filter kept)
  | drop dropped => exact fun member => absent (List.mem_of_mem_filter member)

/-- A key stands behind exactly these others. -/
def StandsBehind (keys : List κ) (key : κ) (others : Finset κ) : Prop :=
  ∃ front back, keys = front ++ key :: back ∧ front.toFinset = others

theorem StandsBehind.mem (stands : StandsBehind keys key others) : key ∈ keys := by
  obtain ⟨front, back, rfl, _⟩ := stands
  exact List.mem_append_right _ List.mem_cons_self

/-- A key that was just used stands behind none. -/
theorem standsBehind_use (positive : 0 < room) (keys : List κ) (key : κ) :
    StandsBehind ((Touch.use key).apply room keys) key ∅ := by
  obtain ⟨places, rfl⟩ := Nat.exists_eq_succ_of_ne_zero (Nat.ne_of_gt positive)
  exact ⟨[], _, List.take_succ_cons, rfl⟩

/-- The keys in front, without one of them. -/
theorem toFinset_without (front : List κ) (other : κ) :
    (front.filter (· ≠ other)).toFinset = front.toFinset.erase other := by
  ext held
  simp [and_comm]

/-- Leaving another key out on both sides. -/
theorem without_split (front back : List κ) {other : κ} (different : other ≠ key) :
    (front ++ key :: back).filter (· ≠ other) =
      front.filter (· ≠ other) ++ key :: back.filter (· ≠ other) := by
  rw [List.filter_append, List.filter_cons, if_pos (decide_eq_true different.symm)]

/-- A key that is dropped no longer stands ahead. -/
theorem StandsBehind.drop (stands : StandsBehind keys key others) {other : κ}
    (different : other ≠ key) :
    StandsBehind ((Touch.drop other).apply room keys) key (others.erase other) := by
  obtain ⟨front, back, rfl, ahead⟩ := stands
  refine ⟨front.filter (· ≠ other), back.filter (· ≠ other), ?_, ?_⟩
  · exact without_split front back different
  · rw [toFinset_without, ahead]

/-- A key that is used goes ahead. The key behind it loses its place if those ahead now
take all places. -/
theorem StandsBehind.use (stands : StandsBehind keys key others) (nodup : keys.Nodup) {other : κ}
    (different : other ≠ key) :
    if (insert other others).card < room then
      StandsBehind ((Touch.use other).apply room keys) key (insert other others)
    else key ∉ (Touch.use other).apply room keys := by
  obtain ⟨front, back, rfl, ahead⟩ := stands
  -- The list before it is cut to the places there are.
  have split : other :: (front ++ key :: back).filter (· ≠ other) =
      (other :: front.filter (· ≠ other)) ++ key :: back.filter (· ≠ other) := by
    rw [without_split front back different, List.cons_append]
  have inFront : (other :: front.filter (· ≠ other)).toFinset = insert other others := by
    rw [List.toFinset_cons, toFinset_without, ahead]
    ext held
    by_cases same : held = other
    · simp [same]
    · simp [same]
  obtain ⟨nodupFront, _, apart⟩ := List.nodup_append.mp nodup
  have count : (other :: front.filter (· ≠ other)).length = (insert other others).card := by
    rw [← inFront, List.toFinset_card_of_nodup]
    refine List.nodup_cons.mpr ⟨?_, nodupFront.filter _⟩
    exact fun member => of_decide_eq_true (List.mem_filter.mp member).2 rfl
  rw [← count, Touch.apply, split]
  split
  · rename_i fits
    refine ⟨_, (back.filter (· ≠ other)).take
      (room - (other :: front.filter (· ≠ other)).length - 1), ?_, inFront⟩
    obtain ⟨left, eq⟩ := Nat.exists_eq_add_of_lt fits
    rw [List.take_append, List.take_of_length_le (Nat.le_of_lt fits)]
    congr 1
    rw [eq]
    simp only [Nat.add_sub_cancel_left, Nat.add_assoc, List.take_succ_cons, Nat.add_sub_cancel]
  · rename_i full
    rw [List.take_append_of_le_length (Nat.not_lt.mp full)]
    intro member
    rcases List.mem_cons.mp (List.mem_of_mem_take member) with same | kept
    · exact different same.symm
    · exact apart key (List.mem_of_mem_filter kept) key List.mem_cons_self rfl

/-! ## Runs -/

/-- No key is named twice. -/
theorem nodup_foldl (nodup : keys.Nodup) (touches : List (Touch κ)) :
    (touches.foldl (Touch.apply room) keys).Nodup := by
  induction touches generalizing keys with
  | nil => exact nodup
  | cons touch touches ih => exact ih (nodup_apply nodup touch)

/-- No first part of a sequence of touches makes the crowd take all places. -/
def Uncrowded (room : Nat) (touches : List (Touch κ)) : Prop :=
  ∀ part ∈ touches.inits, (crowd part).card < room

instance (touches : List (Touch κ)) : Decidable (Uncrowded room touches) :=
  inferInstanceAs (Decidable (∀ _ ∈ _, _))

theorem uncrowded_nil (positive : 0 < room) : Uncrowded room ([] : List (Touch κ)) := by
  intro part member
  rw [List.mem_singleton.mp member]
  exact positive

/-- There is room as long as every touch leaves some. -/
theorem uncrowded_snoc (touches : List (Touch κ)) (touch : Touch κ) :
    Uncrowded room (touches ++ [touch]) ↔
      Uncrowded room touches ∧ (touch.join (crowd touches)).card < room := by
  simp only [Uncrowded, List.mem_inits, List.prefix_concat_iff, ← crowd_snoc]
  constructor
  · intro fits
    exact ⟨fun part within => fits part (Or.inr within), fits _ (Or.inl rfl)⟩
  · intro ⟨earlier, last⟩ part within
    rcases within with rfl | within
    · exact last
    · exact earlier part within

/-- While a key is not touched, it stands behind the crowd, until the crowd has taken all
places for the first time. -/
theorem StandsBehind.run (positive : 0 < room) (stands : StandsBehind keys key ∅)
    (nodup : keys.Nodup) {touches : List (Touch κ)}
    (untouched : ∀ touch ∈ touches, touch.key ≠ key) :
    if Uncrowded room touches then
      StandsBehind (touches.foldl (Touch.apply room) keys) key (crowd touches)
    else key ∉ touches.foldl (Touch.apply room) keys := by
  induction touches using List.reverseRecOn with
  | nil =>
      rw [if_pos (uncrowded_nil positive)]
      exact stands
  | append_singleton touches touch ih =>
      have before := ih fun earlier member => untouched earlier (List.mem_append_left _ member)
      have other : touch.key ≠ key :=
        untouched touch (List.mem_append_right _ (List.mem_singleton_self _))
      rw [List.foldl_append, List.foldl_cons, List.foldl_nil, crowd_snoc]
      simp only [uncrowded_snoc]
      by_cases earlier : Uncrowded room touches
      · simp only [earlier, true_and, if_true] at before ⊢
        cases touch with
        | use used => exact before.use (nodup_foldl nodup touches) other
        | drop dropped =>
            have fewer : ((Touch.drop dropped).join (crowd touches)).card < room := by
              refine Nat.lt_of_le_of_lt (Finset.card_erase_le) ?_
              exact earlier touches ((List.mem_inits ..).mpr List.prefix_rfl)
            rw [if_pos fewer]
            exact before.drop other
      · simp only [earlier, false_and, if_false] at before ⊢
        exact not_mem_apply before other

/-- A key that was used and not touched since is resident exactly if the others that were
used and not dropped since never took all places. -/
theorem mem_residents_iff (positive : 0 < room) (earlier : List (Touch κ)) {later : List (Touch κ)}
    (untouched : ∀ touch ∈ later, touch.key ≠ key) :
    key ∈ residents room (earlier ++ .use key :: later) ↔ Uncrowded room later := by
  have nodup : ((Touch.use key).apply room (residents room earlier)).Nodup :=
    nodup_apply (nodup_foldl List.nodup_nil earlier) _
  have stands := (standsBehind_use positive (residents room earlier) key).run positive nodup
    untouched
  rw [residents, List.foldl_append, List.foldl_cons]
  split at stands
  · rename_i fits
    exact iff_of_true stands.mem fits
  · rename_i full
    exact iff_of_false stands full

end Foundation
