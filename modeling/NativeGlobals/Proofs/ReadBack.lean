import Mathlib.Algebra.Group.Int.Defs
import Mathlib.Data.List.TakeWhile
import NativeGlobals.Value

/-! What a global reads as once something was put there, said without the functions that put
it there. Everything reads as it is, except that an unsigned global holds an integer modulo
2 ^ 32, and that text reads up to its first zero byte. -/

namespace NativeGlobals

def UpToZero (bytes text : Bytes) : Prop :=
  (0 : UInt8) ∉ text ∧ (bytes = text ∨ ∃ rest, bytes = text ++ 0 :: rest)

theorem terminated_eq_self {bytes : Bytes} (absent : (0 : UInt8) ∉ bytes) :
    terminated bytes = bytes := by
  apply List.takeWhile_eq_self_iff.mpr
  intro byte member
  simpa using fun zero : byte = 0 => absent (zero ▸ member)

theorem upToZero_iff {bytes text : Bytes} : UpToZero bytes text ↔ text = terminated bytes := by
  refine ⟨fun cut => ?_, fun same => ?_⟩
  · obtain ⟨absent, shape⟩ := cut
    rcases shape with same | ⟨rest, same⟩
    · rw [same, terminated_eq_self absent]
    · have nonzero : ∀ byte ∈ text, (byte != 0) = true := by
        intro byte member
        simpa using fun zero : byte = 0 => absent (zero ▸ member)
      rw [same, terminated, List.takeWhile_append_of_pos nonzero]
      simp
  · have whole : bytes = text ++ bytes.dropWhile (· != 0) := by
      rw [same]
      exact List.takeWhile_append_dropWhile.symm
    refine ⟨same ▸ zero_not_mem_terminated bytes, ?_⟩
    cases left : bytes.dropWhile (· != 0) with
    | nil => exact Or.inl (by rw [whole, left, List.append_nil])
    | cons byte rest =>
      have stop := List.head?_dropWhile_not (· != 0) bytes
      simp only [left, List.head?_cons, bne_eq_false_iff_eq] at stop
      refine Or.inr ⟨rest, ?_⟩
      rw [← stop, ← left]
      exact whole

/-- Whether `content` is what is read back after native code has put `put` into a global. -/
def Layout.ReadsAs : (layout : Layout) → (put content : layout.Content) → Prop
  | .ownedText, put, content => Option.Rel UpToZero put content
  | .staticText, put, content => UpToZero put content
  | .signed, put, content => content = put
  | .unsigned, put, content => content = put
  | .double, put, content => content = put
  | .handle, put, content => content = put

def Value.ReadsAs : Value → (layout : Layout) → (content : layout.Content) → Prop
  | .int value, .signed, content => content = value
  | .int value, .unsigned, content => (content.toNat : Int) = value.toInt % 2 ^ 32
  | .double bits, .double, content => content = bits
  | .text bytes, .ownedText, content => Option.Rel UpToZero bytes content
  | .handle address, .handle, content => content = address
  | _, _, _ => False

theorem optionRel_upToZero_map (bytes : Option Bytes) :
    Option.Rel UpToZero bytes (bytes.map terminated) := by
  cases bytes with
  | none => exact .none
  | some bytes => exact .some (upToZero_iff.mpr rfl)

theorem toNat_toUInt32 (value : Int32) : (value.toUInt32.toNat : Int) = value.toInt % 2 ^ 32 := by
  have bounded := value.toBitVec.isLt
  show (value.toBitVec.toNat : Int) = value.toBitVec.toInt % 2 ^ 32
  rw [BitVec.toInt_eq_toNat_cond]
  split <;> omega

theorem Layout.readsAs_settle (layout : Layout) (put : layout.Content) :
    layout.ReadsAs put (layout.settle put) := by
  cases layout with
  | ownedText => exact optionRel_upToZero_map put
  | staticText => exact upToZero_iff.mpr rfl
  | _ => rfl

namespace Value

theorem readsAs_of_fit {value : Value} {layout : Layout} {content : layout.Content}
    (fits : value.fit layout = some content) : value.ReadsAs layout content := by
  cases value <;> cases layout <;> cases fits
  case int.signed => rfl
  case int.unsigned value => exact toNat_toUInt32 value
  case double.double => rfl
  case text.ownedText bytes => exact optionRel_upToZero_map bytes
  case handle.handle => rfl

theorem int_eq_of_readsAs {first second : Int32} {layout : Layout} {content : layout.Content}
    (firstRead : (int first).ReadsAs layout content)
    (secondRead : (int second).ReadsAs layout content) : first = second := by
  cases layout with
  | signed => exact firstRead.symm.trans secondRead
  | unsigned =>
    have alike : first.toInt % 2 ^ 32 = second.toInt % 2 ^ 32 := firstRead.symm.trans secondRead
    have firstLow := first.le_toInt
    have firstHigh := first.toInt_lt
    have secondLow := second.le_toInt
    have secondHigh := second.toInt_lt
    exact Int32.toInt_inj.mp (by omega)
  | _ => exact False.elim firstRead

end Value

end NativeGlobals
