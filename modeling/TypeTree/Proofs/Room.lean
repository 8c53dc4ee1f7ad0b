/-
  Room: when a text finds room for all its pieces.

  Whether a piece finds room depends on the pieces before it, since the room is at least doubled
  whenever it has to grow.  `Buffer.roomAfter` says how much room there would be if nothing limited
  it.  Room never shrinks, so looking at the end is enough: all pieces find room exactly if the room
  after the last of them is within the limit (`pushAll_eq_ok_iff`).

  The room at the end lies between the length of the text and twice that length, short texts apart,
  so a text that is longer than the limit finds no room and one that is at most half as long does
  (`limit_lt_roomAfter`, `roomAfter_le_limit`).  In between the pieces decide.
-/
import Mathlib
import TypeTree.Report.Buffer

namespace TypeTree.Report.Buffer

/-- The room after pieces of these sizes, where there was room for `room` bytes and `used` of them
    were used, if nothing limits it. -/
def roomAfter (room used : Nat) : List Nat → Nat
  | [] => room
  | bytes :: more => roomAfter (roomFor room (used + bytes)) (used + bytes) more

/-! ## One piece -/

theorem room_le_roomFor (room needed : Nat) : room ≤ roomFor room needed := by
  by_cases h : needed ≤ room
  · have henough : roomFor room needed = room := if_pos h
    omega
  · rw [roomFor, if_neg h]
    omega

/-- Room that has to grow is less than what is needed, so doubling it takes less than twice that. -/
theorem roomFor_le (room needed : Nat) : roomFor room needed ≤ max room (max 8 (2 * needed - 2)) := by
  by_cases h : needed ≤ room
  · rw [roomFor, if_pos h]
    omega
  · rw [roomFor, if_neg h]
    omega

/-! ## All pieces -/

/-- Room never shrinks. -/
theorem room_le_roomAfter (room used : Nat) (sizes : List Nat) :
    room ≤ roomAfter room used sizes := by
  induction sizes generalizing room used with
  | nil => exact Nat.le_refl room
  | cons bytes more ih =>
    have hfirst := room_le_roomFor room (used + bytes)
    have hrest := ih (roomFor room (used + bytes)) (used + bytes)
    rw [roomAfter]
    omega

/-- Pieces that come later start with the room that the earlier ones leave. -/
theorem roomAfter_append (room used : Nat) (sizes more : List Nat) :
    roomAfter room used (sizes ++ more) =
      roomAfter (roomAfter room used sizes) (used + sizes.sum) more := by
  induction sizes generalizing room used with
  | nil => rfl
  | cons bytes sizes ih =>
    rw [List.cons_append, roomAfter, ih, roomAfter, List.sum_cons, Nat.add_assoc]

/-- There is room at the end for all that was put there. -/
theorem add_sum_le_roomAfter {room used : Nat} (h : used ≤ room) (sizes : List Nat) :
    used + sizes.sum ≤ roomAfter room used sizes := by
  induction sizes generalizing room used with
  | nil => exact h
  | cons bytes more ih =>
    have hrest := ih (le_roomFor room (used + bytes))
    rw [roomAfter, List.sum_cons]
    omega

/-- Nor is there more room at the end than twice of what was put there, if there was not before. -/
theorem roomAfter_le (room used : Nat) (sizes : List Nat) :
    roomAfter room used sizes ≤ max room (max 8 (2 * (used + sizes.sum) - 2)) := by
  induction sizes generalizing room used with
  | nil => exact Nat.le_max_left _ _
  | cons bytes more ih =>
    have hfirst := roomFor_le room (used + bytes)
    have hrest := ih (roomFor room (used + bytes)) (used + bytes)
    rw [roomAfter, List.sum_cons]
    omega

/-- A text that is too long finds no room. -/
theorem limit_lt_roomAfter {sizes : List Nat} (h : limit < sizes.sum) :
    limit < roomAfter 0 0 sizes := by
  have hle := add_sum_le_roomAfter (Nat.le_refl 0) sizes
  omega

/-- A text of at most half as many bytes as there can be, rounded up, finds room. -/
theorem roomAfter_le_limit {sizes : List Nat} (h : sizes.sum ≤ 0x4000000000000000) :
    roomAfter 0 0 sizes ≤ limit := by
  have hle := roomAfter_le 0 0 sizes
  rw [Nat.zero_add] at hle
  show _ ≤ 0x7fffffffffffffff
  omega

/-! ## Pieces within the limit -/

/-- A piece finds room as long as the room is within the limit. -/
theorem push_eq_ok_iff {b next : Buffer} {bytes : Nat} :
    b.push bytes = .ok next ↔
      roomFor b.room (b.used + bytes) ≤ limit ∧
        next.room = roomFor b.room (b.used + bytes) ∧ next.used = b.used + bytes := by
  unfold push
  split
  · rename_i hfits
    constructor
    · intro h
      obtain rfl := Except.ok.inj h
      exact ⟨hfits, rfl, rfl⟩
    · rintro ⟨-, hroom, hused⟩
      obtain ⟨room, used, _, _⟩ := next
      obtain rfl : room = _ := hroom
      obtain rfl : used = _ := hused
      rfl
  · rename_i hfull
    constructor
    · intro h
      exact absurd h (by simp)
    · exact fun h => absurd h.1 hfull

/-- Room is all that a buffer can lack. -/
theorem push_eq_error {b : Buffer} {bytes : Nat} {o : Overflow} (h : b.push bytes = .error o) :
    o = .capacity := by
  unfold push at h
  split at h
  · exact absurd h (by simp)
  · exact (Except.error.inj h).symm

/-- Pieces find room one after another exactly if there would be room for all of them. -/
theorem pushAll_eq_ok_iff {b last : Buffer} {sizes : List Nat} :
    b.pushAll sizes = .ok last ↔
      roomAfter b.room b.used sizes ≤ limit ∧
        last.room = roomAfter b.room b.used sizes ∧ last.used = b.used + sizes.sum := by
  induction sizes generalizing b with
  | nil =>
    rw [pushAll]
    constructor
    · intro h
      obtain rfl := Except.ok.inj h
      exact ⟨b.room_le, rfl, rfl⟩
    · rintro ⟨-, hroom, hused⟩
      obtain ⟨room, used, _, _⟩ := last
      obtain rfl : room = b.room := hroom
      obtain rfl : used = b.used := hused
      rfl
  | cons bytes more ih =>
    rw [pushAll, roomAfter, List.sum_cons]
    cases hpush : b.push bytes with
    | error o =>
      -- the room that is missing now would not be there in the end
      have hfull : ¬ roomFor b.room (b.used + bytes) ≤ limit := by
        intro hfits
        obtain hok : b.push bytes = .ok ⟨_, _, le_roomFor _ _, hfits⟩ :=
          push_eq_ok_iff.mpr ⟨hfits, rfl, rfl⟩
        rw [hok] at hpush
        exact absurd hpush (by simp)
      have hlater := room_le_roomAfter (roomFor b.room (b.used + bytes)) (b.used + bytes) more
      constructor
      · intro h
        exact absurd h (by simp)
      · rintro ⟨hfits, -⟩
        omega
    | ok next =>
      obtain ⟨-, hroom, hused⟩ := push_eq_ok_iff.mp hpush
      show next.pushAll more = .ok last ↔ _
      rw [ih, hroom, hused, Nat.add_assoc]

/-- However many pieces there are, only room can be lacking. -/
theorem pushAll_eq_error {b : Buffer} {sizes : List Nat} {o : Overflow}
    (h : b.pushAll sizes = .error o) : o = .capacity := by
  induction sizes generalizing b with
  | nil => exact absurd h (by simp [pushAll])
  | cons bytes more ih =>
    rw [pushAll] at h
    cases hpush : b.push bytes with
    | error o' =>
      rw [hpush] at h
      obtain rfl : o' = o := Except.error.inj h
      exact push_eq_error hpush
    | ok next =>
      rw [hpush] at h
      exact ih h

-- a long piece fills its room exactly, and for one byte more the room would have to be doubled
example : roomAfter 0 0 [5, 0x4000000000000000 - 5] = 0x4000000000000000 ∧
    roomAfter 0 0 [5, 0x4000000000000000 - 5, 1] = 0x8000000000000000 := by
  decide

end TypeTree.Report.Buffer
