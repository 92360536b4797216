import NativeGlobals.Failure

/-! The message of a failure identifies it, whatever text the operation is. It can be read from its
ends: an index is what stands behind the last blank, a number of slots what stands before the first
one, and the names that follow are parted by commas, which no name has. A message that ends in a
digit is of an index, and no other one does, since no name ends in a digit. -/

namespace NativeGlobals

/-- The same failure made anew, of its parts. -/
def Failure.copy : Failure → Failure
  | .unknownIndex operation index => .unknownIndex operation index
  | .incomplete missing => .incomplete (missing.map fun slot => ⟨slot.position⟩)

theorem eq_of_append_stop {α : Type} {stop : α} {first second rest other : List α}
    (before : stop ∉ first) (again : stop ∉ second)
    (same : first ++ stop :: rest = second ++ stop :: other) : first = second ∧ rest = other := by
  induction first generalizing second with
  | nil =>
    cases second with
    | nil => exact ⟨rfl, (List.cons.inj same).2⟩
    | cons letter second =>
      exact absurd ((List.cons.inj same).1 ▸ List.mem_cons_self) again
  | cons letter first ih =>
    cases second with
    | nil => exact absurd ((List.cons.inj same).1 ▸ List.mem_cons_self) before
    | cons next second =>
      obtain ⟨head, tail⟩ := List.cons.inj same
      obtain ⟨begun, ended⟩ := ih (mt (List.mem_cons_of_mem letter) before)
        (mt (List.mem_cons_of_mem next) again) tail
      exact ⟨by rw [head, begun], ended⟩

theorem eq_of_stop_append {α : Type} {stop : α} {first second rest other : List α}
    (behind : stop ∉ rest) (again : stop ∉ other)
    (same : first ++ stop :: rest = second ++ stop :: other) : first = second ∧ rest = other := by
  -- The last stop is the first one from behind.
  have mirrored : rest.reverse ++ stop :: first.reverse =
      other.reverse ++ stop :: second.reverse := by
    simpa using congrArg List.reverse same
  obtain ⟨ended, begun⟩ := eq_of_append_stop (by simpa using behind) (by simpa using again) mirrored
  exact ⟨List.reverse_inj.mp begun, List.reverse_inj.mp ended⟩

def endsInDigit (text : List Char) : Bool := (text.getLast?.map Char.isDigit).getD false

theorem endsInDigit_append {second : List Char} (nonempty : second ≠ []) (first : List Char) :
    endsInDigit (first ++ second) = endsInDigit second := by
  simp [endsInDigit, List.getLast?_append, List.getLast?_eq_some_getLast nonempty]

/-! Numbers in decimals. -/

theorem isDigit_of_mem_toString {number : Nat} {letter : Char}
    (member : letter ∈ (toString number).toList) : letter.isDigit = true := by
  rw [Nat.toString_eq_repr, Nat.toList_repr] at member
  exact Nat.isDigit_of_mem_toDigits (by decide) (by decide) member

theorem toList_toString_int (number : Int) :
    (toString number).toList =
      (if number < 0 then ['-'] else []) ++ (toString number.natAbs).toList := by
  rw [Int.toString_eq_repr, Int.repr_eq_if, Nat.toString_eq_repr]
  by_cases negative : number < 0
  · have size : (-number).toNat = number.natAbs := by omega
    rw [if_neg (by omega), if_pos negative, String.toList_append, size]
    rfl
  · have size : number.toNat = number.natAbs := by omega
    rw [if_pos (by omega), if_neg negative, List.nil_append, size]

theorem blank_not_mem_toString (number : Nat) : ' ' ∉ (toString number).toList :=
  fun member => absurd (isDigit_of_mem_toString member) (by decide)

theorem blank_not_mem_toString_int (number : Int) : ' ' ∉ (toString number).toList := by
  rw [toList_toString_int, List.mem_append, not_or]
  refine ⟨?_, blank_not_mem_toString number.natAbs⟩
  split <;> simp

theorem toList_toString_ne_nil (number : Nat) : (toString number).toList ≠ [] := by
  rw [Nat.toString_eq_repr, Nat.toList_repr]
  exact Nat.toDigits_ne_nil

theorem toList_toString_int_ne_nil (number : Int) : (toString number).toList ≠ [] := by
  rw [toList_toString_int]
  exact List.append_ne_nil_of_right_ne_nil _ (toList_toString_ne_nil _)

theorem endsInDigit_toString (number : Int) : endsInDigit (toString number).toList = true := by
  have nonempty := toList_toString_ne_nil number.natAbs
  rw [toList_toString_int, endsInDigit_append nonempty, endsInDigit,
    List.getLast?_eq_some_getLast nonempty]
  exact isDigit_of_mem_toString (List.getLast_mem nonempty)

theorem eq_of_toString_eq {first second : Nat}
    (same : (toString first).toList = (toString second).toList) : first = second := by
  rw [Nat.toString_eq_repr, Nat.toString_eq_repr, Nat.toList_repr, Nat.toList_repr] at same
  calc
    first = Nat.ofDigitChars 10 (Nat.toDigits 10 first) 0 := Nat.ofDigitChars_ten_toDigits.symm
    _ = Nat.ofDigitChars 10 (Nat.toDigits 10 second) 0 := by rw [same]
    _ = second := Nat.ofDigitChars_ten_toDigits

theorem minus_mem_toString_iff {number : Int} : '-' ∈ (toString number).toList ↔ number < 0 := by
  have unsigned : '-' ∉ (toString number.natAbs).toList := fun member =>
    absurd (isDigit_of_mem_toString member) (by decide)
  rw [toList_toString_int, List.mem_append, or_iff_left unsigned]
  split
  next negative => simp [negative]
  next positive => simp [positive]

theorem eq_of_toString_int_eq {first second : Int}
    (same : (toString first).toList = (toString second).toList) : first = second := by
  have signs : first < 0 ↔ second < 0 := by
    rw [← minus_mem_toString_iff, same, minus_mem_toString_iff]
  rw [toList_toString_int, toList_toString_int] at same
  simp only [signs] at same
  have sizes := eq_of_toString_eq (List.append_cancel_left same)
  omega

/-! Names. -/

namespace Slot

/-- No name of the schema has a comma, and none ends in a digit. -/
theorem plain_names : ∀ declaration ∈ schema, ',' ∉ declaration.name.toList ∧
    endsInDigit declaration.name.toList = false := by
  decide +kernel

theorem comma_not_mem_name (slot : Slot) : ',' ∉ slot.name.toList :=
  (plain_names slot.declaration (List.get_mem _ _)).1

theorem endsInDigit_name (slot : Slot) : endsInDigit slot.name.toList = false :=
  (plain_names slot.declaration (List.get_mem _ _)).2

theorem toList_listing_cons_cons (slot next : Slot) (rest : List Slot) :
    (listing (slot :: next :: rest)).toList =
      slot.name.toList ++ ',' :: ' ' :: (listing (next :: rest)).toList := by
  simp [listing, String.intercalate_cons_cons]

theorem endsInDigit_listing (slots : List Slot) : endsInDigit (listing slots).toList = false := by
  induction slots with
  | nil => rfl
  | cons slot rest ih =>
    cases rest with
    | nil => simpa [listing] using slot.endsInDigit_name
    | cons next rest =>
      rw [toList_listing_cons_cons]
      by_cases empty : (listing (next :: rest)).toList = []
      · rw [empty, endsInDigit_append (by simp)]
        rfl
      · rw [List.append_cons, List.append_cons, endsInDigit_append empty]
        exact ih

theorem eq_of_listing_eq {first second : List Slot} (length : first.length = second.length)
    (same : (listing first).toList = (listing second).toList) : first = second := by
  induction first generalizing second with
  | nil => exact (List.length_eq_zero_iff.mp length.symm).symm
  | cons slot rest ih =>
    cases second with
    | nil => cases length
    | cons other others =>
      have lengths : rest.length = others.length := Nat.succ.inj length
      cases rest with
      | nil =>
        cases others with
        | nil =>
          have named : slot.name = other.name := String.toList_inj.mp (by simpa [listing] using same)
          rw [name_injective named]
        | cons next others => cases lengths
      | cons next rest =>
        cases others with
        | nil => cases lengths
        | cons after others =>
          rw [toList_listing_cons_cons, toList_listing_cons_cons] at same
          obtain ⟨named, tail⟩ :=
            eq_of_append_stop slot.comma_not_mem_name other.comma_not_mem_name same
          rw [name_injective (String.toList_inj.mp named), ih lengths (List.cons.inj tail).2]

end Slot

namespace Failure

theorem toList_message_unknownIndex (operation : String) (index : Int32) :
    (unknownIndex operation index).message.toList =
      (operation ++ ": unimplemented index").toList ++ ' ' :: (toString index.toInt).toList := by
  simp [message]

theorem toList_message_incomplete (missing : List Slot) :
    (incomplete missing).message.toList = (toString missing.length).toList ++
      ' ' :: ("global(s) were not initialized: ".toList ++ (Slot.listing missing).toList) := by
  simp [message]

theorem endsInDigit_message_unknownIndex (operation : String) (index : Int32) :
    endsInDigit (unknownIndex operation index).message.toList = true := by
  rw [toList_message_unknownIndex, List.append_cons,
    endsInDigit_append (toList_toString_int_ne_nil index.toInt)]
  exact endsInDigit_toString index.toInt

theorem endsInDigit_message_incomplete (missing : List Slot) :
    endsInDigit (incomplete missing).message.toList = false := by
  rw [toList_message_incomplete]
  by_cases empty : (Slot.listing missing).toList = []
  · rw [empty, List.append_nil, endsInDigit_append (by simp)]
    rfl
  · rw [List.append_cons, ← List.append_assoc, endsInDigit_append empty]
    exact Slot.endsInDigit_listing missing

theorem message_injective {first second : Failure} (same : first.message = second.message) :
    first = second := by
  have letters := congrArg String.toList same
  cases first with
  | unknownIndex operation index =>
    cases second with
    | unknownIndex other place =>
      rw [toList_message_unknownIndex, toList_message_unknownIndex] at letters
      obtain ⟨named, numbered⟩ := eq_of_stop_append (blank_not_mem_toString_int index.toInt)
        (blank_not_mem_toString_int place.toInt) letters
      have operations := (String.append_left_inj _).mp (String.toList_inj.mp named)
      rw [operations, Int32.toInt_inj.mp (eq_of_toString_int_eq numbered)]
    | incomplete missing =>
      -- Only the message of an index ends in a digit.
      have ends := endsInDigit_message_unknownIndex operation index
      rw [letters, endsInDigit_message_incomplete] at ends
      cases ends
  | incomplete missing =>
    cases second with
    | unknownIndex operation index =>
      have ends := endsInDigit_message_unknownIndex operation index
      rw [← letters, endsInDigit_message_incomplete] at ends
      cases ends
    | incomplete other =>
      rw [toList_message_incomplete, toList_message_incomplete] at letters
      obtain ⟨counted, listed⟩ := eq_of_append_stop (blank_not_mem_toString missing.length)
        (blank_not_mem_toString other.length) letters
      have length := eq_of_toString_eq counted
      rw [Slot.eq_of_listing_eq length (List.append_cancel_left listed)]

theorem copy_eq (failure : Failure) : failure.copy = failure := by
  cases failure with
  | unknownIndex operation index => rfl
  | incomplete missing => exact congrArg incomplete (List.map_id missing)

end Failure

/-- Two failures are the same exactly if they read the same, whatever the operations are and
whichever slots are listed. This is so of a copy of the first one too, which reads as that does. -/
theorem message_identifies_failure (first second : Failure) :
    ((first == second) = true ↔ first.message = second.message) ∧
      ((first.copy == second) = true ↔ first.copy.message = second.message) ∧
      first.copy.message = first.message := by
  have identified : ∀ failure : Failure,
      (failure == second) = true ↔ failure.message = second.message := by
    intro failure
    rw [beq_iff_eq]
    exact ⟨congrArg Failure.message, Failure.message_injective⟩
  exact ⟨identified first, identified first.copy, by rw [first.copy_eq]⟩

end NativeGlobals
