import Scaffold.Options.File
import Scaffold.Proofs.Json.Reading

set_option autoImplicit false

/-! # Drafts written as JSON

A draft is written as an object that holds a member for each of its values, under any of the names of
the field. A field without a value may be written as null or left out, and members whose names belong
to no field may stand anywhere (`Draft.IsHeldBy`). Reading gives the draft back, however the object
is written (`Draft.parse_of_writtenAsJson`).

What the reader finds are the fields of the members (`givenFields`), and a field comes twice among
them exactly if two members have one of its names: the names of different fields are different
(`DraftField.ofKey?_eq_some_iff`). -/

namespace Scaffold

/-! ## The names of fields -/

namespace DraftField

theorem mem_all (field : DraftField) : field ∈ all := by
  cases field <;> decide

theorem eq_of_mem_keys {key : String} {field other : DraftField} (h : key ∈ field.keys)
    (hother : key ∈ other.keys) : field = other := by
  have hall : ∀ field ∈ all, ∀ other ∈ all, ∀ key ∈ field.keys, key ∈ other.keys → field = other := by
    decide
  exact hall field (mem_all field) other (mem_all other) key h hother

theorem ofKey?_eq_some_iff {key : String} {field : DraftField} :
    ofKey? key = some field ↔ key ∈ field.keys := by
  unfold ofKey?
  constructor
  · intro h
    simpa using List.find?_some h
  · intro h
    obtain ⟨found, hfound⟩ : ∃ found, (all.find? fun field => field.keys.contains key) = some found :=
      Option.isSome_iff_exists.1 (List.find?_isSome.2 ⟨field, mem_all field, by simpa using h⟩)
    have hkey : key ∈ found.keys := by simpa using List.find?_some hfound
    rw [hfound, eq_of_mem_keys hkey h]

end DraftField

namespace Draft

/-! ## How a draft is written -/

/-- The values of the members that belong to a field with the value. -/
inductive IsGivenBy : Option String → List (Option String) → Prop
  | once (value : Option String) : IsGivenBy value [value]
  | absent : IsGivenBy none []

instance (value : Option String) (values : List (Option String)) :
    Decidable (IsGivenBy value values) :=
  decidable_of_iff (values = [value] ∨ value = none ∧ values = []) <| by
    constructor
    · rintro (rfl | ⟨rfl, rfl⟩)
      · exact .once value
      · exact .absent
    · rintro (_ | _)
      · exact Or.inl rfl
      · exact Or.inr ⟨rfl, rfl⟩

theorem IsGivenBy.eq_none {value : Option String} (h : IsGivenBy value []) : value = none := by
  cases h
  rfl

theorem IsGivenBy.eq_first {value first : Option String} {rest : List (Option String)}
    (h : IsGivenBy value (first :: rest)) : value = first ∧ rest = [] := by
  cases h
  exact ⟨rfl, rfl⟩

/-- The members hold the values of the draft, each under one of the names of its field, and whatever
    else under other names. -/
def IsHeldBy (d : Draft) (members : List Json.Member) : Prop :=
  ∀ field, IsGivenBy (d.get field) ((members.filter fun member => member.1 ∈ field.keys).map Prod.snd)

/-- The text is that of an object which holds the values of the draft. -/
def WrittenAsJson (d : Draft) (text : String) : Prop :=
  ∃ members, d.IsHeldBy members ∧ Json.WritesObject members text.toList

theorem exists_writtenAsJson (d : Draft) : ∃ text, d.WrittenAsJson text := by
  let members : List Json.Member := DraftField.all.map fun field => (field.keys.headD "", d.get field)
  have hheld : d.IsHeldBy members := by
    intro field
    cases field <;> exact .once _
  obtain ⟨written, hwritten⟩ := Json.exists_writesObject members
  exact ⟨String.ofList written, members, hheld, by rwa [String.toList_ofList]⟩

/-! ## Reading it -/

/-- The fields that members belong to, with the values of the members. -/
def givenFields (members : List Json.Member) : List (DraftField × Option String) :=
  members.filterMap fun member => (DraftField.ofKey? member.1).map fun field => (field, member.2)

theorem filter_givenFields (members : List Json.Member) (field : DraftField) :
    ((givenFields members).filter fun entry => entry.1 = field).map Prod.snd =
      (members.filter fun member => member.1 ∈ field.keys).map Prod.snd := by
  induction members with
  | nil => rfl
  | cons member members ih =>
    unfold givenFields at ih ⊢
    cases hkey : DraftField.ofKey? member.1 with
    | none =>
      have hnot : member.1 ∉ field.keys := fun h => by
        rw [DraftField.ofKey?_eq_some_iff.2 h] at hkey
        exact absurd hkey (Option.some_ne_none field)
      simp [hkey, hnot, ih]
    | some found =>
      have hiff : member.1 ∈ field.keys ↔ found = field := by
        rw [← DraftField.ofKey?_eq_some_iff, hkey, Option.some_inj]
      by_cases hfound : found = field
      · simp [hkey, hiff, hfound, ih]
      · simp [hkey, hiff, hfound, ih]

theorem jsonValue?_of_spellsValue {raw : Option (List Json.Part)} {value : Option String}
    (h : Json.SpellsValue raw value) (parts : List Json.Part) :
    jsonValue? (Json.RawMember.json (parts, raw)).2 = some value := by
  cases h with
  | null => rfl
  | string h =>
    change (Json.textOfParts? _).map _ = _
    rw [h, Option.map_some, String.ofList_toList]

theorem jsonFields?_of_spells {raws : List Json.RawMember} {members : List Json.Member}
    (h : List.Forall₂ Json.Spells raws members) :
    jsonFields? (raws.map Json.RawMember.json) = some (givenFields members) := by
  induction h with
  | nil => rfl
  | @cons raw member raws members hmember _ ih =>
    have hvalue := jsonValue?_of_spellsValue hmember.value raw.1
    have hname : Json.textOfParts? (Json.RawMember.json raw).1 = some member.1.toList := hmember.name
    unfold givenFields at ih ⊢
    cases hkey : DraftField.ofKey? member.1 <;>
      simp [jsonFields?, hname, hvalue, hkey, ih]

/-- Fields of which none comes twice make the draft with their values. -/
theorem ofFields?_eq_some {fields : List (DraftField × Option String)} {d : Draft}
    (h : ∀ field, IsGivenBy (d.get field)
      ((fields.filter fun entry => entry.1 = field).map Prod.snd)) :
    ofFields? fields = some d := by
  induction fields generalizing d with
  | nil =>
    have hempty : empty = d := ext_get fun field => by
      rw [get_empty, (h field).eq_none]
    rw [ofFields?, hempty]
  | cons entry rest ih =>
    obtain ⟨field, value⟩ := entry
    obtain ⟨hvalue, hrest⟩ : d.get field = value ∧
        (rest.filter fun entry => entry.1 = field).map Prod.snd = [] := by
      have hfield := h field
      simp only [List.filter_cons, decide_true, if_true, List.map_cons] at hfield
      exact hfield.eq_first
    have hnot : (rest.any fun entry => entry.1 = field) = false := by
      simpa using hrest
    -- the rest makes the draft without the value
    have hwithout : ofFields? rest = some (d.set field none) := ih fun other => by
      rw [get_set]
      by_cases hother : other = field
      · rw [if_pos hother, hother, hrest]
        exact .absent
      · have hcons := h other
        simp only [List.filter_cons, Ne.symm hother, decide_false, Bool.false_eq_true, if_false]
          at hcons
        rwa [if_neg hother]
    have hback : (d.set field none).set field value = d := ext_get fun other => by
      rw [get_set, get_set]
      by_cases hother : other = field
      · rw [if_pos hother, hother, hvalue]
      · rw [if_neg hother, if_neg hother]
    rw [ofFields?, hnot, hwithout]
    simp [hback]

/-- A draft that is written as a JSON object is read back. -/
theorem parse_of_writtenAsJson {d : Draft} {text : String} (h : d.WrittenAsJson text) :
    parse text = .ok d := by
  obtain ⟨members, hheld, hwritten⟩ := h
  obtain ⟨raws, hraws, hread⟩ := Json.read?_of_writesObject hwritten
  have hfields : ofFields? (givenFields members) = some d :=
    ofFields?_eq_some fun field => by
      rw [filter_givenFields]
      exact hheld field
  have hjson : (Json.read? text).bind ofJson? = some d := by
    rw [hread, Option.bind_some, ofJson?, jsonFields?_of_spells hraws, Option.bind_some, hfields]
  simp only [parse, parse?, hjson]

/-! ## A text with escapes -/

/-- A draft with a title, and with an identifier of characters that are to be escaped. -/
def escapedDraft : Draft :=
  (empty.set .title (some "Ai")).set .appIdentifier (some "\"é\n😀")

/-- An object with the title and the identifier under another name, with null for the scene, and with
    a member that is no field. -/
def escapedMembers : List Json.Member :=
  [("appid", some "\"é\n😀"), ("scene", none), ("note", some ""), ("title", some "Ai")]

/-- A text of the object, with escapes of every kind and blanks. -/
def escapedJson : String :=
  " \x7b\"appid\": \"\\\"\\u00E9\\n\\ud83d\\ude00\",\"scene\":null\n,\"note\" :\"\",\"title\":\"Ai\"\x7d"

theorem escapedJson_writesObject : Json.WritesObject escapedMembers escapedJson.toList := by
  have hnone : Json.IsGap [] := by decide
  have hblank : Json.IsGap [' '] := by decide
  have hline : Json.IsGap ['\n'] := by decide
  have hquote : Json.WritesChar '"' ['\\', '"'] := .letter (by decide)
  have haccent : Json.WritesCode 'é'.toNat ['0', '0', 'E', '9'] :=
    .digits (a := 0) (b := 0) (c := 14) (d := 9) (by decide) (by decide) (by decide) (by decide)
  have hbreak : Json.WritesChar '\n' ['\\', 'n'] := .letter (by decide)
  have hhigh : Json.WritesCode 0xD83D ['d', '8', '3', 'd'] :=
    .digits (a := 13) (b := 8) (c := 3) (d := 13) (by decide) (by decide) (by decide) (by decide)
  have hlow : Json.WritesCode 0xDE00 ['d', 'e', '0', '0'] :=
    .digits (a := 13) (b := 14) (c := 0) (d := 0) (by decide) (by decide) (by decide) (by decide)
  have hface : Json.WritesChar '😀' _ := .halves (by decide) hhigh hlow
  have hidentifier : Json.WritesString (String.ofList ['"', 'é', '\n', '😀']) _ :=
    .quoted (by
      rw [String.toList_ofList]
      exact .cons hquote (.cons (.code haccent) (.cons hbreak (.cons hface .nil))))
  have happid : Json.WritesString "appid" _ := Json.writesString_plain (by decide)
  have hscene : Json.WritesString "scene" _ := Json.writesString_plain (by decide)
  have hnote : Json.WritesString "note" _ := Json.writesString_plain (by decide)
  have hempty : Json.WritesString "" _ := Json.writesString_plain (by decide)
  have htitle : Json.WritesString "title" _ := Json.writesString_plain (by decide)
  have hname : Json.WritesString "Ai" _ := Json.writesString_plain (by decide)
  have hmembers := Json.WritesMembers.more
    (.member happid (.string hidentifier) hnone hnone hblank hnone) <|
    .more (.member hscene .null hnone hnone hnone hline) <|
    .more (.member hnote (.string hempty) hnone hblank hnone hnone) <|
    .last (.member htitle (.string hname) hnone hnone hnone hnone)
  have hobject := Json.WritesObject.object hblank (.members hmembers) hnone
  exact hobject

theorem parse_of_writtenAsJson_sample :
    escapedDraft.WrittenAsJson escapedJson ∧ parse escapedJson = .ok escapedDraft := by
  have hheld : escapedDraft.IsHeldBy escapedMembers := by
    intro field
    cases field <;> decide
  have hwritten : escapedDraft.WrittenAsJson escapedJson :=
    ⟨escapedMembers, hheld, escapedJson_writesObject⟩
  exact ⟨hwritten, parse_of_writtenAsJson hwritten⟩

end Draft

end Scaffold
