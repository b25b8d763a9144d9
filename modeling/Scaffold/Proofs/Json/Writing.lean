import Mathlib.Data.List.Forall2
import Scaffold.Json.Value

set_option autoImplicit false

/-! # Written JSON objects

How an object whose members are strings or null is written in JSON. There are many texts for one
object: blanks may stand around everything, and a character may be written as it is, by a letter
behind a backslash or by its code, in two halves if it has no code of four digits. Every text can be
written (`exists_writesString`). -/

namespace Scaffold.Json

/-! ## Strings -/

/-- The character is a hexadecimal digit with the value, a small or a capital one. -/
def IsDigitOf (value : Nat) (c : Char) : Prop :=
  "0123456789abcdef".toList[value]? = some c ∨ "0123456789ABCDEF".toList[value]? = some c

instance (value : Nat) (c : Char) : Decidable (IsDigitOf value c) :=
  inferInstanceAs (Decidable (_ ∨ _))

/-- Four hexadecimal digits that write a code. -/
inductive WritesCode : Nat → List Char → Prop
  | digits {a b c d : Nat} {first second third last : Char} (hfirst : IsDigitOf a first)
      (hsecond : IsDigitOf b second) (hthird : IsDigitOf c third) (hlast : IsDigitOf d last) :
      WritesCode (((a * 16 + b) * 16 + c) * 16 + d) [first, second, third, last]

/-- The letters that can stand behind a backslash, and the characters that they write. -/
def letters : List (Char × Char) :=
  [('"', '"'), ('\\', '\\'), ('/', '/'), ('b', '\x08'), ('f', '\x0c'), ('n', '\n'), ('r', '\r'),
    ('t', '\t')]

/-- What a character can be written as in a string. -/
inductive WritesChar (c : Char) : List Char → Prop
  | plain (hquote : c ≠ '"') (hbackslash : c ≠ '\\') (hcontrol : 0x20 ≤ c.toNat) : WritesChar c [c]
  | letter {sign : Char} (h : (sign, c) ∈ letters) : WritesChar c ['\\', sign]
  | code {digits : List Char} (h : WritesCode c.toNat digits) : WritesChar c ('\\' :: 'u' :: digits)
  | halves {high low : List Char} (hc : 0x10000 ≤ c.toNat)
      (hhigh : WritesCode (0xD800 + (c.toNat - 0x10000) / 0x400) high)
      (hlow : WritesCode (0xDC00 + (c.toNat - 0x10000) % 0x400) low) :
      WritesChar c ('\\' :: 'u' :: high ++ '\\' :: 'u' :: low)

/-- The characters of a text, written one after the other between quotes. -/
inductive WritesString (text : String) : List Char → Prop
  | quoted {pieces : List (List Char)} (h : List.Forall₂ WritesChar text.toList pieces) :
      WritesString text ('"' :: pieces.flatten ++ ['"'])

/-! ## Objects -/

/-- The characters that may stand between tokens. -/
def blanks : List Char :=
  [' ', '\t', '\n', '\r']

/-- Nothing but characters that may stand between tokens. -/
def IsGap (cs : List Char) : Prop :=
  ∀ c ∈ cs, c ∈ blanks

instance (cs : List Char) : Decidable (IsGap cs) :=
  List.decidableBAll _ cs

/-- A member of an object: its name and its value, a text or null. -/
abbrev Member := String × Option String

/-- A written value. -/
inductive WritesValue : Option String → List Char → Prop
  | null : WritesValue none "null".toList
  | string {text : String} {written : List Char} (h : WritesString text written) :
      WritesValue (some text) written

/-- A written member with the gaps around it. -/
inductive WritesMember : Member → List Char → Prop
  | member {name : String} {value : Option String} {written writtenValue : List Char}
      {before afterName beforeValue after : List Char} (hname : WritesString name written)
      (hvalue : WritesValue value writtenValue) (hbefore : IsGap before) (hafterName : IsGap afterName)
      (hbeforeValue : IsGap beforeValue) (hafter : IsGap after) :
      WritesMember (name, value)
        (before ++ written ++ afterName ++ ':' :: beforeValue ++ writtenValue ++ after)

/-- Members with commas between them. -/
inductive WritesMembers : List Member → List Char → Prop
  | last {member : Member} {written : List Char} (h : WritesMember member written) :
      WritesMembers [member] written
  | more {member : Member} {members : List Member} {written rest : List Char}
      (h : WritesMember member written) (hrest : WritesMembers members rest) :
      WritesMembers (member :: members) (written ++ ',' :: rest)

/-- What stands between the braces of an object. -/
inductive WritesBody : List Member → List Char → Prop
  | empty {gap : List Char} (h : IsGap gap) : WritesBody [] gap
  | members {members : List Member} {written : List Char} (h : WritesMembers members written) :
      WritesBody members written

/-- A text that holds one object. -/
inductive WritesObject (members : List Member) : List Char → Prop
  | object {before body after : List Char} (hbefore : IsGap before) (hbody : WritesBody members body)
      (hafter : IsGap after) : WritesObject members (before ++ '{' :: body ++ '}' :: after)

/-! ## Every text can be written -/

theorem exists_isDigitOf {value : Nat} (h : value < 16) : ∃ c, IsDigitOf value c := by
  refine ⟨"0123456789abcdef".toList.get ⟨value, h⟩, Or.inl ?_⟩
  exact List.getElem?_eq_getElem h

theorem exists_writesCode {code : Nat} (h : code < 0x10000) : ∃ digits, WritesCode code digits := by
  obtain ⟨first, hfirst⟩ := exists_isDigitOf (by omega : code / 0x1000 < 16)
  obtain ⟨second, hsecond⟩ := exists_isDigitOf (by omega : code / 0x100 % 16 < 16)
  obtain ⟨third, hthird⟩ := exists_isDigitOf (by omega : code / 0x10 % 16 < 16)
  obtain ⟨last, hlast⟩ := exists_isDigitOf (by omega : code % 16 < 16)
  have hdigits := WritesCode.digits hfirst hsecond hthird hlast
  have hcode : ((code / 0x1000 * 16 + code / 0x100 % 16) * 16 + code / 0x10 % 16) * 16 + code % 16 =
      code := by
    omega
  rw [hcode] at hdigits
  exact ⟨_, hdigits⟩

theorem exists_writesChar (c : Char) : ∃ written, WritesChar c written := by
  by_cases hquote : c = '"'
  · exact ⟨['\\', '"'], .letter (by rw [hquote]; decide)⟩
  by_cases hbackslash : c = '\\'
  · exact ⟨['\\', '\\'], .letter (by rw [hbackslash]; decide)⟩
  by_cases hcontrol : 0x20 ≤ c.toNat
  · exact ⟨_, .plain hquote hbackslash hcontrol⟩
  · obtain ⟨digits, hdigits⟩ := exists_writesCode (by omega : c.toNat < 0x10000)
    exact ⟨_, .code hdigits⟩

theorem exists_writesString (text : String) : ∃ written, WritesString text written := by
  obtain ⟨pieces, hpieces⟩ : ∃ pieces, List.Forall₂ WritesChar text.toList pieces := by
    induction text.toList with
    | nil => exact ⟨[], .nil⟩
    | cons c cs ih =>
      obtain ⟨written, hwritten⟩ := exists_writesChar c
      obtain ⟨pieces, hpieces⟩ := ih
      exact ⟨written :: pieces, .cons hwritten hpieces⟩
  exact ⟨_, .quoted hpieces⟩

/-- A text without anything that has to be escaped can be written as it is. -/
theorem writesString_plain {text : String}
    (h : text.toList.all fun c => c ≠ '"' && c ≠ '\\' && 0x20 ≤ c.toNat) :
    WritesString text ('"' :: text.toList ++ ['"']) := by
  have hpieces : List.Forall₂ WritesChar text.toList (text.toList.map fun c => [c]) :=
    List.forall₂_map_right_iff.2 <| List.forall₂_same.2 fun c hc => by
      have hplain := List.all_eq_true.1 h c hc
      simp only [Bool.and_eq_true, decide_eq_true_eq] at hplain
      exact .plain hplain.1.1 hplain.1.2 hplain.2
  have hflatten : (text.toList.map fun c => [c]).flatten = text.toList := by
    rw [← List.flatMap_def, List.flatMap_singleton']
  simpa only [hflatten] using WritesString.quoted hpieces

theorem exists_writesValue (value : Option String) : ∃ written, WritesValue value written := by
  cases value with
  | none => exact ⟨_, .null⟩
  | some text =>
    obtain ⟨written, hwritten⟩ := exists_writesString text
    exact ⟨written, .string hwritten⟩

theorem exists_writesObject (members : List Member) : ∃ text, WritesObject members text := by
  have hnone : IsGap [] := fun c hc => absurd hc List.not_mem_nil
  have hmember : ∀ member, ∃ written, WritesMember member written := by
    rintro ⟨name, value⟩
    obtain ⟨written, hname⟩ := exists_writesString name
    obtain ⟨writtenValue, hvalue⟩ := exists_writesValue value
    exact ⟨_, .member hname hvalue hnone hnone hnone hnone⟩
  obtain ⟨body, hbody⟩ : ∃ body, WritesBody members body := by
    cases members with
    | nil => exact ⟨[], .empty hnone⟩
    | cons first rest =>
      obtain ⟨written, hwritten⟩ : ∃ written, WritesMembers (first :: rest) written := by
        induction rest generalizing first with
        | nil =>
          obtain ⟨written, hfirst⟩ := hmember first
          exact ⟨written, .last hfirst⟩
        | cons second rest ih =>
          obtain ⟨written, hfirst⟩ := hmember first
          obtain ⟨more, hmore⟩ := ih second
          exact ⟨_, .more hfirst hmore⟩
      exact ⟨written, .members hwritten⟩
  exact ⟨_, .object hnone hbody hnone⟩

end Scaffold.Json
