import NativeGlobals.Content

/-! The schema that host and registry share: an ordered table of declarations. A host
addresses a global by its place in the table, so the order is part of the interface and
the table only ever grows at its end. A slot is a place in the table. -/

namespace NativeGlobals

/-- One row of the schema. `symbol` names the R symbol that the global is expected to
hold, where it is to hold one. -/
structure Declaration where
  name : String
  layout : Layout
  symbol : Option String

def schema : List Declaration :=
  [ ⟨"R_Home", .ownedText, none⟩,
    ⟨"R_TempDir", .ownedText, none⟩,
    ⟨"Sys_TempDir", .ownedText, none⟩,
    ⟨"R_GlobalEnv", .handle, none⟩,
    ⟨"R_BaseEnv", .handle, none⟩,
    ⟨"R_BaseNamespace", .handle, none⟩,
    ⟨"R_NamespaceRegistry", .handle, none⟩,
    ⟨"R_Interactive", .unsigned, none⟩,
    ⟨"R_NilValue", .handle, none⟩,
    ⟨"R_UnboundValue", .handle, none⟩,
    ⟨"R_MissingArg", .handle, some ""⟩,
    ⟨"R_EmptyEnv", .handle, none⟩,
    ⟨"R_Srcref", .handle, none⟩,
    ⟨"R_Bracket2Symbol", .handle, some "[["⟩,
    ⟨"R_BracketSymbol", .handle, some "["⟩,
    ⟨"R_BraceSymbol", .handle, some "\x7b"⟩,
    ⟨"R_DoubleColonSymbol", .handle, some "::"⟩,
    ⟨"R_ClassSymbol", .handle, some "class"⟩,
    ⟨"R_DeviceSymbol", .handle, some ".Device"⟩,
    ⟨"R_DevicesSymbol", .handle, some ".Devices"⟩,
    ⟨"R_DimNamesSymbol", .handle, some "dimnames"⟩,
    ⟨"R_DimSymbol", .handle, some "dim"⟩,
    ⟨"R_DollarSymbol", .handle, some "$"⟩,
    ⟨"R_DotsSymbol", .handle, some "..."⟩,
    ⟨"R_DropSymbol", .handle, some "drop"⟩,
    ⟨"R_LastvalueSymbol", .handle, some ".Last.value"⟩,
    ⟨"R_LevelsSymbol", .handle, some "levels"⟩,
    ⟨"R_ModeSymbol", .handle, some "mode"⟩,
    ⟨"R_NameSymbol", .handle, some "name"⟩,
    ⟨"R_NamesSymbol", .handle, some "names"⟩,
    ⟨"R_NaRmSymbol", .handle, some "na.rm"⟩,
    ⟨"R_PackageSymbol", .handle, some "package"⟩,
    ⟨"R_QuoteSymbol", .handle, some "quote"⟩,
    ⟨"R_RowNamesSymbol", .handle, some "row.names"⟩,
    ⟨"R_SeedsSymbol", .handle, some ".Random.seed"⟩,
    ⟨"R_SourceSymbol", .handle, some "source"⟩,
    ⟨"R_TspSymbol", .handle, some "tsp"⟩,
    ⟨"R_dot_defined", .handle, some ".defined"⟩,
    ⟨"R_dot_Method", .handle, some ".Method"⟩,
    ⟨"R_dot_target", .handle, some ".target"⟩,
    ⟨"R_dot_packageName", .handle, some ".packageName"⟩,
    ⟨"R_dot_Generic", .handle, some ".Generic"⟩,
    ⟨"R_SrcrefSymbol", .handle, some "srcref"⟩,
    ⟨"R_SrcfileSymbol", .handle, some "srcfile"⟩,
    ⟨"R_NaString", .handle, none⟩,
    ⟨"R_NaN", .double, none⟩,
    ⟨"R_PosInf", .double, none⟩,
    ⟨"R_NegInf", .double, none⟩,
    ⟨"R_NaReal", .double, none⟩,
    ⟨"R_NaInt", .signed, none⟩,
    ⟨"R_TrueValue", .handle, none⟩,
    ⟨"R_FalseValue", .handle, none⟩,
    ⟨"R_LogicalNAValue", .handle, none⟩,
    ⟨"R_BlankString", .handle, none⟩,
    ⟨"R_BlankScalarString", .handle, none⟩,
    ⟨"R_BaseSymbol", .handle, some "base"⟩,
    ⟨"R_NamespaceEnvSymbol", .handle, some ".__NAMESPACE__."⟩,
    ⟨"R_RestartToken", .handle, some ""⟩,
    ⟨"R_SortListSymbol", .handle, some "sort.list"⟩,
    ⟨"R_SpecSymbol", .handle, some "spec"⟩,
    ⟨"R_TripleColonSymbol", .handle, some ":::"⟩,
    ⟨"R_PreviousSymbol", .handle, some "previous"⟩ ]

structure Slot where
  position : Fin schema.length
  deriving DecidableEq

namespace Slot

def declaration (slot : Slot) : Declaration := schema.get slot.position

def name (slot : Slot) : String := slot.declaration.name

def layout (slot : Slot) : Layout := slot.declaration.layout

def kind (slot : Slot) : Kind := slot.layout.kind

def symbol (slot : Slot) : Option String := slot.declaration.symbol

def index (slot : Slot) : Int32 := Int32.ofNat slot.position.val

def all : List Slot := (List.finRange schema.length).map Slot.mk

def ofIndex? (index : Int32) : Option Slot :=
  if inside : 0 ≤ index.toInt ∧ index.toInt.toNat < schema.length then
    some ⟨index.toInt.toNat, inside.2⟩
  else
    none

def find? (name : String) : Option Slot :=
  all.find? fun slot => slot.name == name

theorem toInt_index (slot : Slot) : slot.index.toInt = slot.position.val := by
  have inside := slot.position.isLt
  have short : schema.length = 62 := rfl
  exact Int32.toInt_ofNat_of_lt (by omega)

theorem mem_all (slot : Slot) : slot ∈ all :=
  List.mem_map.mpr ⟨slot.position, List.mem_finRange _, rfl⟩

theorem all_nodup : all.Nodup :=
  List.pairwise_map.mpr ((List.nodup_finRange _).imp fun different same =>
    different (congrArg Slot.position same))

theorem ofIndex?_eq_some_iff {index : Int32} {slot : Slot} :
    ofIndex? index = some slot ↔ index.toInt = slot.position.val := by
  unfold ofIndex?
  constructor
  · intro found
    split at found
    next inside =>
      cases found
      change index.toInt = (index.toInt.toNat : Int)
      omega
    next => cases found
  · intro same
    have bounded := slot.position.isLt
    rw [dif_pos ⟨by omega, by omega⟩]
    apply congrArg some
    cases slot with
    | mk position =>
      change index.toInt = (position.val : Int) at same
      apply congrArg Slot.mk
      apply Fin.ext
      change index.toInt.toNat = position.val
      omega

theorem toInt_ne_of_ne {index : Int32} {slot other : Slot}
    (located : index.toInt = slot.position.val) (different : slot ≠ other) :
    index.toInt ≠ other.position.val := by
  intro elsewhere
  have found := ofIndex?_eq_some_iff.mpr elsewhere
  rw [ofIndex?_eq_some_iff.mpr located] at found
  exact different (Option.some.inj found)

theorem ofIndex?_eq_none_iff {index : Int32} :
    ofIndex? index = none ↔ index.toInt < 0 ∨ (schema.length : Int) ≤ index.toInt := by
  unfold ofIndex?
  split
  next inside => simp; omega
  next outside => simp; omega

/-- The schema has no text that native code owns, so a slot takes exactly the values of
its own kind. -/
theorem layout_ne_staticText (slot : Slot) : slot.layout ≠ .staticText := by
  have absent : ∀ position : Fin schema.length, (schema.get position).layout ≠ .staticText := by
    decide
  exact absent slot.position

theorem names_nodup : (schema.map Declaration.name).Nodup := by
  decide +kernel

theorem name_injective {first second : Slot} (same : first.name = second.name) :
    first = second := by
  cases first with
  | mk i =>
    cases second with
    | mk j =>
      have firstListed : i.val < (schema.map Declaration.name).length := by simp
      have secondListed : j.val < (schema.map Declaration.name).length := by simp
      have listed : (schema.map Declaration.name)[i.val] =
          (schema.map Declaration.name)[j.val] := by
        rw [List.getElem_map, List.getElem_map]
        exact same
      exact congrArg Slot.mk (Fin.ext ((List.getElem_inj names_nodup).mp listed))

theorem find?_name (slot : Slot) : find? slot.name = some slot := by
  have found : (find? slot.name).isSome := by
    rw [find?, List.find?_isSome]
    exact ⟨slot, mem_all slot, by simp⟩
  obtain ⟨other, located⟩ := Option.isSome_iff_exists.mp found
  have same : other.name = slot.name := by
    simpa using List.find?_some located
  rw [located, name_injective same]

end Slot

end NativeGlobals
