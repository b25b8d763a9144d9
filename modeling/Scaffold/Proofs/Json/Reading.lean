import Mathlib.Data.List.Basic
import Scaffold.Proofs.Json.Writing

set_option autoImplicit false

/-! # Reading written JSON objects

A written object is read as the object it was written for. The cutter is followed piece by piece:
each piece adds its own tokens to those that were there, whatever they are. Only a word is not ended
by its own last character but by what follows it, so a value is told by how the cutter goes on
behind it (`GoesOn`).

The parts of a string keep the halves of a character apart that was written in two; they are the
text all the same (`Spells`). -/

namespace Scaffold.Json

/-! ## What is cut off -/

/-- A member as it is cut off: the parts of its name, and those of its value unless that is null. -/
abbrev RawMember := List Part × Option (List Part)

/-- The parts of a value are those of a text, or there are none for null. -/
inductive SpellsValue : Option (List Part) → Option String → Prop
  | null : SpellsValue none none
  | string {parts : List Part} {text : String} (h : textOfParts? parts = some text.toList) :
      SpellsValue (some parts) (some text)

/-- The parts are those of the member's name and value. -/
structure Spells (raw : RawMember) (member : Member) : Prop where
  name : textOfParts? raw.1 = some member.1.toList
  value : SpellsValue raw.2 member.2

/-- The token of a value. -/
def valueToken : Option (List Part) → Token
  | none => .null
  | some parts => .string parts

/-- The tokens of a member. -/
def memberTokens (raw : RawMember) : List Token :=
  [.string raw.1, .colon, valueToken raw.2]

/-- The tokens of members with commas between them. -/
def bodyTokens : List RawMember → List Token
  | [] => []
  | [raw] => memberTokens raw
  | raw :: second :: raws => memberTokens raw ++ .comma :: bodyTokens (second :: raws)

/-- The value in an object. -/
def RawMember.json (raw : RawMember) : List Part × Json :=
  (raw.1, match raw.2 with
    | none => .null
    | some parts => .string parts)

/-- What follows is read from where the first part ended. -/
theorem foldlM_append_of_eq_some {σ τ : Type} {step? : σ → τ → Option σ} {state next : σ}
    {items : List τ} (h : items.foldlM step? state = some next) (more : List τ) :
    (items ++ more).foldlM step? state = more.foldlM step? next := by
  rw [List.foldlM_append, h]
  rfl

/-! ## Characters -/

theorem hexValue?_of_isDigitOf {value : Nat} {c : Char} (h : IsDigitOf value c) :
    Text.hexValue? c = some value := by
  have hsmall : ∀ entry ∈ "0123456789abcdef".toList.zipIdx,
      Text.hexValue? entry.1 = some entry.2 := by
    decide
  have hcapital : ∀ entry ∈ "0123456789ABCDEF".toList.zipIdx,
      Text.hexValue? entry.1 = some entry.2 := by
    decide
  rcases h with h | h
  · exact hsmall (c, value) (List.mem_zipIdx_iff_getElem?.2 h)
  · exact hcapital (c, value) (List.mem_zipIdx_iff_getElem?.2 h)

/-- An escape with a code adds one part. -/
theorem foldlM_writesCode {code : Nat} {digits : List Char} (h : WritesCode code digits)
    (tokens : List Token) (parts : List Part) :
    ('\\' :: 'u' :: digits).foldlM Cutter.step? ⟨tokens, .inString parts⟩ =
      some ⟨tokens, .inString (.ofCode code :: parts)⟩ := by
  cases h with
  | digits hfirst hsecond hthird hlast =>
    simp [Cutter.step?, hexValue?_of_isDigitOf hfirst, hexValue?_of_isDigitOf hsecond,
      hexValue?_of_isDigitOf hthird, hexValue?_of_isDigitOf hlast]

/-- No character has the code of a half. -/
theorem ofCode_toNat (c : Char) : Part.ofCode c.toNat = .char c := by
  have hvalid : c.toNat < 0xD800 ∨ 0xDFFF < c.toNat ∧ c.toNat < 0x110000 := c.valid
  have hhigh : isHighHalf c.toNat = false := by
    unfold isHighHalf
    simp only [Bool.and_eq_false_iff, decide_eq_false_iff_not]
    omega
  have hlow : isLowHalf c.toNat = false := by
    unfold isLowHalf
    simp only [Bool.and_eq_false_iff, decide_eq_false_iff_not]
    omega
  unfold Part.ofCode
  rw [hhigh, hlow, Char.ofNat_toNat]
  rfl

/-- The two halves of a character beyond the codes of four digits pair up to it. -/
theorem textOfParts?_halves {c : Char} (hc : 0x10000 ≤ c.toNat) (more : List Part) :
    textOfParts? (.ofCode (0xD800 + (c.toNat - 0x10000) / 0x400) ::
      .ofCode (0xDC00 + (c.toNat - 0x10000) % 0x400) :: more) =
      (textOfParts? more).map (c :: ·) := by
  have hvalid : c.toNat < 0xD800 ∨ 0xDFFF < c.toNat ∧ c.toNat < 0x110000 := c.valid
  generalize hhigh : 0xD800 + (c.toNat - 0x10000) / 0x400 = high
  generalize hlow : 0xDC00 + (c.toNat - 0x10000) % 0x400 = low
  have hisHigh : isHighHalf high = true := by
    unfold isHighHalf
    simp only [Bool.and_eq_true, decide_eq_true_eq]
    omega
  have hisLow : isLowHalf low = true := by
    unfold isLowHalf
    simp only [Bool.and_eq_true, decide_eq_true_eq]
    omega
  have hcode : 0x10000 + (high - 0xD800) * 0x400 + (low - 0xDC00) = c.toNat := by omega
  simp [Part.ofCode, textOfParts?, hisHigh, hisLow, hcode]

/-- A character adds its parts, which are two if it is written in halves. -/
theorem foldlM_writesChar {c : Char} {written : List Char} (h : WritesChar c written) :
    ∃ new : List Part,
      (∀ tokens parts, written.foldlM Cutter.step? ⟨tokens, .inString parts⟩ =
        some ⟨tokens, .inString (new.reverse ++ parts)⟩) ∧
      ∀ more, textOfParts? (new ++ more) = (textOfParts? more).map (c :: ·) := by
  cases h with
  | plain hquote hbackslash hcontrol =>
    refine ⟨[.char c], fun tokens parts => ?_, fun more => rfl⟩
    have hcontrol' : ¬ c.toNat < 0x20 := by omega
    simp [Cutter.step?, hquote, hbackslash, hcontrol']
  | @letter sign h =>
    refine ⟨[.char c], fun tokens parts => ?_, fun more => rfl⟩
    have hall : ∀ entry ∈ letters, entry.1 ≠ 'u' ∧ escape? entry.1 = some entry.2 := by decide
    obtain ⟨hu, hescape⟩ : sign ≠ 'u' ∧ escape? sign = some c := hall (sign, c) h
    simp [Cutter.step?, hu, hescape]
  | code h =>
    refine ⟨[.char c], fun tokens parts => ?_, fun more => rfl⟩
    rw [foldlM_writesCode h, ofCode_toNat]
    rfl
  | halves hc hhigh hlow =>
    refine ⟨[.ofCode _, .ofCode _], fun tokens parts => ?_, textOfParts?_halves hc⟩
    rw [foldlM_append_of_eq_some (foldlM_writesCode hhigh tokens parts)]
    exact foldlM_writesCode hlow _ _

/-- Characters add their parts one after the other. -/
theorem foldlM_writesChars {cs : List Char} {pieces : List (List Char)}
    (h : List.Forall₂ WritesChar cs pieces) :
    ∃ new, textOfParts? new = some cs ∧
      ∀ tokens parts, pieces.flatten.foldlM Cutter.step? ⟨tokens, .inString parts⟩ =
        some ⟨tokens, .inString (new.reverse ++ parts)⟩ := by
  induction h with
  | nil => exact ⟨[], rfl, fun tokens parts => rfl⟩
  | cons hpiece _ ih =>
    obtain ⟨first, hfirst, htextFirst⟩ := foldlM_writesChar hpiece
    obtain ⟨rest, htext, hrest⟩ := ih
    refine ⟨first ++ rest, by rw [htextFirst, htext]; rfl, fun tokens parts => ?_⟩
    rw [List.flatten_cons, foldlM_append_of_eq_some (hfirst tokens parts), hrest,
      List.reverse_append, List.append_assoc]

/-- A string adds one token. -/
theorem foldlM_writesString {text : String} {written : List Char} (h : WritesString text written) :
    ∃ parts, textOfParts? parts = some text.toList ∧
      ∀ tokens, written.foldlM Cutter.step? ⟨tokens, .between⟩ =
        some ⟨.string parts :: tokens, .between⟩ := by
  cases h with
  | @quoted pieces h =>
    obtain ⟨parts, htext, hparts⟩ := foldlM_writesChars h
    refine ⟨parts, htext, fun tokens => ?_⟩
    calc ('"' :: pieces.flatten ++ ['"']).foldlM Cutter.step? ⟨tokens, .between⟩
      _ = (pieces.flatten ++ ['"']).foldlM Cutter.step? ⟨tokens, .inString []⟩ := rfl
      _ = ['"'].foldlM Cutter.step? ⟨tokens, .inString (parts.reverse ++ [])⟩ :=
        foldlM_append_of_eq_some (hparts tokens []) _
      _ = some ⟨.string parts :: tokens, .between⟩ := by simp [Cutter.step?]

/-! ## Values and gaps -/

theorem begin?_of_mem_blanks {c : Char} (h : c ∈ blanks) (tokens : List Token) :
    Cutter.begin? tokens c = some ⟨tokens, .between⟩ := by
  simp only [blanks, List.mem_cons, List.not_mem_nil, or_false] at h
  rcases h with rfl | rfl | rfl | rfl <;> rfl

/-- A gap adds nothing. -/
theorem foldlM_gap {gap : List Char} (h : IsGap gap) (tokens : List Token) :
    gap.foldlM Cutter.step? ⟨tokens, .between⟩ = some ⟨tokens, .between⟩ := by
  induction gap with
  | nil => rfl
  | cons c gap ih =>
    rw [List.foldlM_cons]
    have hstep : Cutter.step? ⟨tokens, .between⟩ c = some ⟨tokens, .between⟩ :=
      begin?_of_mem_blanks (h c (List.mem_cons_self ..)) tokens
    rw [hstep]
    exact ih fun c hc => h c (List.mem_cons_of_mem _ hc)

/-- A value adds one token, at the latest with the character behind it. -/
theorem foldlM_writesValue {value : Option String} {written : List Char}
    (h : WritesValue value written) :
    ∃ raw, SpellsValue raw value ∧
      ∀ tokens c, c.isLower = false → (written ++ [c]).foldlM Cutter.step? ⟨tokens, .between⟩ =
        Cutter.begin? (valueToken raw :: tokens) c := by
  cases h with
  | null =>
    refine ⟨none, .null, fun tokens c hc => ?_⟩
    have hword : "null".toList.foldlM Cutter.step? ⟨tokens, .between⟩ =
        some ⟨tokens, .inWord ['l', 'l', 'u', 'n']⟩ := rfl
    rw [foldlM_append_of_eq_some hword]
    simp [Cutter.step?, hc, Cutter.endWord?, wordToken?, valueToken]
  | string h =>
    obtain ⟨parts, htext, hparts⟩ := foldlM_writesString h
    refine ⟨some parts, .string htext, fun tokens c _ => ?_⟩
    rw [foldlM_append_of_eq_some (hparts tokens)]
    simp [Cutter.step?, valueToken]

/-- A gap can stand between a value and what ends it. -/
theorem foldlM_valueGap {value : Option String} {written gap : List Char}
    (h : WritesValue value written) (hgap : IsGap gap) :
    ∃ raw, SpellsValue raw value ∧
      ∀ tokens c, c.isLower = false →
        (written ++ gap ++ [c]).foldlM Cutter.step? ⟨tokens, .between⟩ =
          Cutter.begin? (valueToken raw :: tokens) c := by
  obtain ⟨raw, hraw, hwritten⟩ := foldlM_writesValue h
  refine ⟨raw, hraw, fun tokens c hc => ?_⟩
  cases gap with
  | nil => rw [List.append_nil, hwritten tokens c hc]
  | cons first gap =>
    have hfirst := hgap first (List.mem_cons_self ..)
    have hlower : ∀ c ∈ blanks, c.isLower = false := by simp [blanks]
    have hrest : IsGap gap := fun c hc => hgap c (List.mem_cons_of_mem _ hc)
    have hended := (hwritten tokens first (hlower first hfirst)).trans (begin?_of_mem_blanks hfirst _)
    have hsplit : written ++ first :: gap ++ [c] = written ++ [first] ++ (gap ++ [c]) := by simp
    rw [hsplit, foldlM_append_of_eq_some hended, foldlM_append_of_eq_some (foldlM_gap hrest _)]
    simp [Cutter.step?]

/-! ## Members and objects -/

/-- A member adds its three tokens. -/
theorem foldlM_writesMember {member : Member} {written : List Char}
    (h : WritesMember member written) :
    ∃ raw, Spells raw member ∧
      ∀ tokens c, c.isLower = false → (written ++ [c]).foldlM Cutter.step? ⟨tokens, .between⟩ =
        Cutter.begin? ((memberTokens raw).reverse ++ tokens) c := by
  cases h with
  | @member name value writtenName writtenValue before afterName beforeValue after hname hvalue
      hbefore hafterName hbeforeValue hafter =>
    obtain ⟨parts, htext, hparts⟩ := foldlM_writesString hname
    obtain ⟨raw, hraw, hwritten⟩ := foldlM_valueGap hvalue hafter
    refine ⟨(parts, raw), ⟨htext, hraw⟩, fun tokens c hc => ?_⟩
    have hsplit : before ++ writtenName ++ afterName ++ ':' :: beforeValue ++ writtenValue ++ after ++
          [c] =
        before ++ (writtenName ++ (afterName ++ ':' :: (beforeValue ++
          (writtenValue ++ after ++ [c])))) := by
      simp
    rw [hsplit, foldlM_append_of_eq_some (foldlM_gap hbefore _),
      foldlM_append_of_eq_some (hparts tokens), foldlM_append_of_eq_some (foldlM_gap hafterName _)]
    -- the colon
    change (beforeValue ++ _).foldlM Cutter.step? ⟨.colon :: .string parts :: tokens, .between⟩ = _
    rw [foldlM_append_of_eq_some (foldlM_gap hbeforeValue _), hwritten _ c hc]
    rfl

/-- Members add their tokens with commas between them. -/
theorem foldlM_writesMembers {members : List Member} {written : List Char}
    (h : WritesMembers members written) :
    ∃ raws, raws ≠ [] ∧ List.Forall₂ Spells raws members ∧
      ∀ tokens c, c.isLower = false → (written ++ [c]).foldlM Cutter.step? ⟨tokens, .between⟩ =
        Cutter.begin? ((bodyTokens raws).reverse ++ tokens) c := by
  induction h with
  | last h =>
    obtain ⟨raw, hraw, hwritten⟩ := foldlM_writesMember h
    exact ⟨[raw], List.cons_ne_nil _ _, .cons hraw .nil, hwritten⟩
  | @more member members written rest h _ ih =>
    obtain ⟨raw, hraw, hwritten⟩ := foldlM_writesMember h
    obtain ⟨raws, hne, hraws, hrest⟩ := ih
    obtain ⟨second, more, rfl⟩ := List.exists_cons_of_ne_nil hne
    refine ⟨raw :: second :: more, List.cons_ne_nil _ _, .cons hraw hraws, fun tokens c hc => ?_⟩
    have hcomma : (written ++ [',']).foldlM Cutter.step? ⟨tokens, .between⟩ =
        some ⟨.comma :: ((memberTokens raw).reverse ++ tokens), .between⟩ := hwritten tokens ',' rfl
    have hsplit : written ++ ',' :: rest ++ [c] = written ++ [','] ++ (rest ++ [c]) := by simp
    rw [hsplit, foldlM_append_of_eq_some hcomma, hrest _ c hc]
    simp [bodyTokens]

/-- A written object is cut into its tokens. -/
theorem tokens?_of_writesObject {members : List Member} {written : List Char}
    (h : WritesObject members written) :
    ∃ raws, List.Forall₂ Spells raws members ∧
      tokens? written = some (.openBrace :: bodyTokens raws ++ [.closeBrace]) := by
  cases h with
  | @object before body after hbefore hbody hafter =>
    obtain ⟨raws, hraws, hclosed⟩ : ∃ raws, List.Forall₂ Spells raws members ∧
        ∀ tokens, (body ++ ['}']).foldlM Cutter.step? ⟨tokens, .between⟩ =
          some ⟨.closeBrace :: ((bodyTokens raws).reverse ++ tokens), .between⟩ := by
      cases hbody with
      | empty hgap =>
        refine ⟨[], .nil, fun tokens => ?_⟩
        rw [foldlM_append_of_eq_some (foldlM_gap hgap tokens)]
        rfl
      | members hmembers =>
        obtain ⟨raws, -, hraws, hwritten⟩ := foldlM_writesMembers hmembers
        exact ⟨raws, hraws, fun tokens => hwritten tokens '}' rfl⟩
    refine ⟨raws, hraws, ?_⟩
    have hcut : (before ++ '{' :: body ++ '}' :: after).foldlM Cutter.step? ⟨[], .between⟩ =
        some ⟨.closeBrace :: ((bodyTokens raws).reverse ++ [.openBrace]), .between⟩ :=
      calc (before ++ '{' :: body ++ '}' :: after).foldlM Cutter.step? ⟨[], .between⟩
        _ = (before ++ '{' :: (body ++ ['}'] ++ after)).foldlM Cutter.step? ⟨[], .between⟩ := by simp
        _ = ('{' :: (body ++ ['}'] ++ after)).foldlM Cutter.step? ⟨[], .between⟩ :=
          foldlM_append_of_eq_some (foldlM_gap hbefore _) _
        _ = (body ++ ['}'] ++ after).foldlM Cutter.step? ⟨[.openBrace], .between⟩ := rfl
        _ = after.foldlM Cutter.step? _ := foldlM_append_of_eq_some (hclosed _) _
        _ = _ := foldlM_gap hafter _
    unfold tokens?
    rw [hcut, Option.bind_some]
    simp [Cutter.finish?]

/-! ## What is built -/

/-- The tokens of a member put it in the object that is open. -/
theorem foldlM_memberTokens (raw : RawMember) (members : List (List Part × Json)) (name : List Part)
    {expected : Expected} (h : expected = .name ∨ expected = .nameOrEnd) :
    (memberTokens raw).foldlM Builder.step? ⟨[.object members name], expected⟩ =
      some ⟨[.object (raw.json :: members) []], .commaOrEnd⟩ := by
  obtain ⟨parts, value⟩ := raw
  rcases h with rfl | rfl <;> cases value <;> rfl

theorem foldlM_bodyTokens (first : RawMember) (raws : List RawMember)
    (members : List (List Part × Json)) (name : List Part) {expected : Expected}
    (h : expected = .name ∨ expected = .nameOrEnd) :
    (bodyTokens (first :: raws)).foldlM Builder.step? ⟨[.object members name], expected⟩ =
      some ⟨[.object (((first :: raws).map RawMember.json).reverse ++ members) []], .commaOrEnd⟩ := by
  induction raws generalizing first members name expected with
  | nil => exact foldlM_memberTokens first members name h
  | cons second raws ih =>
    rw [bodyTokens, foldlM_append_of_eq_some (foldlM_memberTokens first members name h)]
    -- the comma
    change (bodyTokens (second :: raws)).foldlM Builder.step? ⟨[.object _ []], .name⟩ = _
    rw [ih second _ _ (Or.inl rfl)]
    simp

/-- The tokens of an object build it. -/
theorem ofTokens?_bodyTokens (raws : List RawMember) :
    ofTokens? (.openBrace :: bodyTokens raws ++ [.closeBrace]) =
      some (.object (raws.map RawMember.json)) := by
  cases raws with
  | nil => rfl
  | cons first raws =>
    have hbody := foldlM_bodyTokens first raws [] [] (Or.inr rfl)
    -- the opening brace
    change ((bodyTokens (first :: raws) ++ [Token.closeBrace]).foldlM Builder.step?
      ⟨[.object [] []], .nameOrEnd⟩).bind Builder.finish? = _
    rw [foldlM_append_of_eq_some hbody]
    simp [Builder.step?, Builder.close?, Builder.complete, Builder.finish?]

/-- A written object is read as one with its members in their order. -/
theorem read?_of_writesObject {members : List Member} {text : String}
    (h : WritesObject members text.toList) :
    ∃ raws : List RawMember, List.Forall₂ Spells raws members ∧
      read? text = some (.object (raws.map RawMember.json)) := by
  obtain ⟨raws, hraws, htokens⟩ := tokens?_of_writesObject h
  refine ⟨raws, hraws, ?_⟩
  unfold read?
  rw [htokens, Option.bind_some, ofTokens?_bodyTokens]

end Scaffold.Json
