import Scaffold.Yaml.Stream

set_option autoImplicit false

/-! # YAML events

A document is one node. A node is told as events: a scalar, an alias, or the start of a collection,
the nodes in the collection and its end. Where a node may be left out and is, an empty plain scalar
stands for it.

Events are made from tokens by goals. A goal is a part of a document that is still to come; the next
tokens decide which events it begins with and which smaller goals it leaves. -/

namespace Scaffold.Yaml

/-- A scalar as it was written. -/
structure Scalar where
  tag : Option (List Char)
  text : List Char
  isPlain : Bool
  deriving DecidableEq

/-- The scalar that stands for a node that was left out. -/
def Scalar.absent : Scalar :=
  ⟨none, [], true⟩

/-- An event of a document. -/
inductive Event
  | alias (name : List Char)
  | scalar (anchor : Option (List Char)) (scalar : Scalar)
  | sequenceStart (anchor : Option (List Char))
  | sequenceEnd
  | mappingStart (anchor : Option (List Char))
  | mappingEnd
  deriving DecidableEq

/-- The event of a node that was left out. -/
def Event.absent : Event :=
  .scalar none .absent

/-- Where a node stands. -/
inductive Place
  /-- In a flow collection. -/
  | flow
  /-- In a block sequence, or at the top of a document. -/
  | block
  /-- In a block mapping, where a sequence need not be indented. -/
  | mapped
  deriving DecidableEq

/-- A part of a document that is still to come. -/
inductive Goal
  | node (place : Place)
  /-- The entries of a block sequence, and its end. -/
  | blockEntries
  /-- The entries of a sequence that is not indented. -/
  | bareEntries
  /-- The keys and values of a block mapping, and its end. -/
  | blockKeys
  /-- The value of a block mapping's key. -/
  | blockValue
  /-- The entries of a flow sequence, and its end. -/
  | flowEntries (isFirst : Bool)
  /-- The key of a mapping of one pair in a flow sequence. -/
  | pairKey
  /-- The value of a mapping of one pair. -/
  | pairValue
  /-- The end of a mapping of one pair. -/
  | pairEnd
  /-- The keys and values of a flow mapping, and its end. -/
  | flowKeys (isFirst : Bool)
  /-- The value of a flow mapping's key. -/
  | flowValue
  /-- The value of a flow mapping's key that has none. -/
  | noValue

/-- What comes of a goal: its first events, the goals it leaves and the tokens that are left. -/
structure Progress where
  events : List Event
  goals : List Goal
  rest : List Token

/-! ## Nodes -/

/-- What tags are made of: handles and their expansions. The first expansion of a handle counts. -/
abbrev TagHandles := List (List Char × List Char)

/-- The handles that are known in every document. -/
def TagHandles.default : TagHandles :=
  [(['!'], ['!']), (['!', '!'], "tag:yaml.org,2002:".toList)]

/-- The tag that a handle and a suffix make up. -/
def TagHandles.tag? (handles : TagHandles) (handle suffix : List Char) : Option (List Char) :=
  if handle.isEmpty then some suffix else (handles.lookup handle).map (· ++ suffix)

/-- What may be written in front of a node. -/
structure Properties where
  anchor : Option (List Char)
  tag : Option (List Char)

/-- Whether there is a property. -/
def Properties.isGiven (p : Properties) : Bool :=
  p.anchor.isSome || p.tag.isSome

/-- Reads the properties of a node, in either order. -/
def properties? (handles : TagHandles) : List Token → Option (Properties × List Token)
  | .anchor name :: .tag handle suffix :: rest | .tag handle suffix :: .anchor name :: rest =>
    (handles.tag? handle suffix).map fun tag => (⟨some name, some tag⟩, rest)
  | .anchor name :: rest => some (⟨some name, none⟩, rest)
  | .tag handle suffix :: rest =>
    (handles.tag? handle suffix).map fun tag => (⟨none, some tag⟩, rest)
  | rest => some (⟨none, none⟩, rest)

/-- Reads what comes behind the properties of a node. Properties alone are an empty scalar. -/
def content? (place : Place) (p : Properties) (tokens : List Token) : Option Progress :=
  let bare : Option Progress :=
    if p.isGiven then some ⟨[.scalar p.anchor ⟨p.tag, [], true⟩], [], tokens⟩ else none
  match tokens with
  | .scalar text isPlain :: rest =>
    some ⟨[.scalar p.anchor ⟨p.tag.filter (· != ['!']), text, isPlain⟩], [], rest⟩
  | .flowSequenceStart :: rest => some ⟨[.sequenceStart p.anchor], [.flowEntries true], rest⟩
  | .flowMappingStart :: rest => some ⟨[.mappingStart p.anchor], [.flowKeys true], rest⟩
  | .blockSequenceStart :: rest =>
    if place = .flow then bare else some ⟨[.sequenceStart p.anchor], [.blockEntries], rest⟩
  | .blockMappingStart :: rest =>
    if place = .flow then bare else some ⟨[.mappingStart p.anchor], [.blockKeys], rest⟩
  | .blockEntry :: _ =>
    if place = .mapped then some ⟨[.sequenceStart p.anchor], [.bareEntries], tokens⟩ else bare
  | _ => bare

/-- Reads a node. -/
def node? (handles : TagHandles) (place : Place) : List Token → Option Progress
  | .alias name :: rest => some ⟨[.alias name], [], rest⟩
  | tokens => (properties? handles tokens).bind fun (p, rest) => content? place p rest

/-! ## Goals -/

/-- Goes on with a node, unless one of the tokens `ends` comes next and it is left out. -/
def nodeUnless (ends : List Token) (place : Place) (goals : List Goal) (tokens : List Token) :
    Progress :=
  if tokens.head?.any ends.contains then ⟨[.absent], goals, tokens⟩
  else ⟨[], .node place :: goals, tokens⟩

/-- Goes on in a flow collection: the tokens behind the comma that has to stand before all entries
    but the first. -/
def nextEntry? (isFirst : Bool) : List Token → Option (List Token)
  | tokens@(.flowEntry :: rest) => some (if isFirst then tokens else rest)
  | tokens => if isFirst then some tokens else none

/-- Takes up a goal. -/
def Goal.expand? (handles : TagHandles) : Goal → List Token → Option Progress
  | .node place, tokens => node? handles place tokens
  | .blockEntries, .blockEntry :: rest =>
    some (nodeUnless [.blockEntry, .blockEnd] .block [.blockEntries] rest)
  | .blockEntries, .blockEnd :: rest => some ⟨[.sequenceEnd], [], rest⟩
  | .blockEntries, _ => none
  | .bareEntries, .blockEntry :: rest =>
    some (nodeUnless [.blockEntry, .key, .value, .blockEnd] .block [.bareEntries] rest)
  | .bareEntries, tokens => some ⟨[.sequenceEnd], [], tokens⟩
  | .blockKeys, .key :: rest =>
    some (nodeUnless [.key, .value, .blockEnd] .mapped [.blockValue, .blockKeys] rest)
  | .blockKeys, .blockEnd :: rest => some ⟨[.mappingEnd], [], rest⟩
  | .blockKeys, _ => none
  | .blockValue, .value :: rest => some (nodeUnless [.key, .value, .blockEnd] .mapped [] rest)
  | .blockValue, tokens => some ⟨[.absent], [], tokens⟩
  | .flowEntries _, .flowSequenceEnd :: rest => some ⟨[.sequenceEnd], [], rest⟩
  | .flowEntries isFirst, tokens =>
    match nextEntry? isFirst tokens with
    | none => none
    | some (.flowSequenceEnd :: rest) => some ⟨[.sequenceEnd], [], rest⟩
    | some (.key :: rest) =>
      some ⟨[.mappingStart none], [.pairKey, .pairValue, .pairEnd, .flowEntries false], rest⟩
    | some rest => some ⟨[], [.node .flow, .flowEntries false], rest⟩
  | .pairKey, .value :: rest | .pairKey, .flowEntry :: rest
  | .pairKey, .flowSequenceEnd :: rest => some ⟨[.absent], [], rest⟩
  | .pairKey, tokens => some ⟨[], [.node .flow], tokens⟩
  | .pairValue, .value :: rest => some (nodeUnless [.flowEntry, .flowSequenceEnd] .flow [] rest)
  | .pairValue, tokens => some ⟨[.absent], [], tokens⟩
  | .pairEnd, tokens => some ⟨[.mappingEnd], [], tokens⟩
  | .flowKeys _, .flowMappingEnd :: rest => some ⟨[.mappingEnd], [], rest⟩
  | .flowKeys isFirst, tokens =>
    match nextEntry? isFirst tokens with
    | none => none
    | some (.flowMappingEnd :: rest) => some ⟨[.mappingEnd], [], rest⟩
    | some (.key :: rest) =>
      some (nodeUnless [.value, .flowEntry, .flowMappingEnd] .flow [.flowValue, .flowKeys false]
        rest)
    | some rest => some ⟨[], [.node .flow, .noValue, .flowKeys false], rest⟩
  | .flowValue, .value :: rest => some (nodeUnless [.flowEntry, .flowMappingEnd] .flow [] rest)
  | .flowValue, tokens => some ⟨[.absent], [], tokens⟩
  | .noValue, tokens => some ⟨[.absent], [], tokens⟩

/-- Takes up goals one after the other, and the goals they leave. -/
def expandAll? (handles : TagHandles) :
    Nat → List Goal → List Token → Option (List Event × List Token)
  | _, [], tokens => some ([], tokens)
  | 0, _ :: _, _ => none
  | room + 1, goal :: goals, tokens =>
    match goal.expand? handles tokens with
    | none => none
    | some p =>
      (expandAll? handles room (p.goals ++ goals) p.rest).map fun (events, rest) =>
        (p.events ++ events, rest)

/-- The events of one node. A goal that takes no token leaves at most one other, and one that takes
    a token leaves at most four. -/
def nodeEvents? (handles : TagHandles) (tokens : List Token) : Option (List Event × List Token) :=
  expandAll? handles (8 * (tokens.length + 2)) [.node .block] tokens

/-! ## Documents -/

/-- The directives of a document: whether there is one for the version, and the tag handles. -/
structure Directives where
  hasVersion : Bool
  handles : TagHandles

/-- Reads directives. A second one for the version or for the same handle is refused, and so is a
    version other than 1.1 and 1.2. -/
def directives? (d : Directives) : List Token → Option (Directives × List Token)
  | .versionDirective major minor :: rest =>
    if d.hasVersion || major != 1 || (minor != 1 && minor != 2) then none
    else directives? { d with hasVersion := true } rest
  | .tagDirective handle expansion :: rest =>
    if (d.handles.lookup handle).isSome then none
    else directives? { d with handles := d.handles ++ [(handle, expansion)] } rest
  | tokens => some (d, tokens)

/-- Whether a token belongs to the stream and not to a document. -/
def Token.isOutside : Token → Bool
  | .versionDirective _ _ | .tagDirective _ _ | .documentStart | .documentEnd | .streamEnd => true
  | _ => false

/-- Reads the first document of a stream. Directives have to be followed by a marked start. -/
def document? (tokens : List Token) : Option (List Event × List Token) :=
  match directives? ⟨false, []⟩ tokens with
  | none => none
  | some (d, .documentStart :: rest) =>
    if rest.head?.any Token.isOutside then some ([.absent], rest)
    else nodeEvents? (d.handles ++ .default) rest
  | some (d, rest) =>
    if d.hasVersion || !d.handles.isEmpty then none else nodeEvents? .default rest

/-- The events of the only document of a stream. A stream without a document has no events; a stream
    with more than one is refused. -/
def Event.ofTokens? (tokens : List Token) : Option (List Event) :=
  if tokens = [.streamEnd] then some []
  else
    match document? tokens with
    | none => none
    | some (events, rest) =>
      if rest.dropWhile (· = .documentEnd) = [.streamEnd] then some events else none

/-- The events of the only document that a text holds. -/
def events? (text : String) : Option (List Event) :=
  (tokens? text.toList).bind Event.ofTokens?

end Scaffold.Yaml
