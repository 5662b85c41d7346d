import DistanceField.Yaml.Scalar

/-! What can be wrong with a YAML stream. -/
namespace DistanceField.Yaml

inductive Flaw where
  | tabInSingle
  | tabInDouble
  | openSingle
  | openDouble
  | dividerInQuote
  | shortEscape
  | shortPair
  | loneHigh
  | badLow
  | shortLongEscape
  | unknownEscape (c : Char)
  | badTag
  | tabInIndent
  | longBlank
  | shallowLine
  | badOption (option : Bytes)
  | tabBeforeKey
  | reserved (c : Char)
  | tabAtStart
  | noBlock
  | noAnchorName
  | noAnchorValue
  | dashAfterAnchor
  | noAliasName
  | noMergeKey
  | noKey
  | badKeyName
  | badKey
  | noDirective
  | noDocument
  | valueAfterDivider
  | valueAfterEnd
  | strayValue
  | strayListClose
  | strayMapClose
  | notScalar
  | notScalarMark
  | noValueForAnchor
  | anchorTwice
  | commaOrBrace
  | commaOrBracket
  | commaFirst
  | noMapValue
  | noMapEntry
  | openMap
  | openList
  | dashAfterKey
  | notMapPart
  | valueAfterEntry
  | keyAfterKey
  | anchorInMap
  | tagInMap
  | anchorInList
  | tagInList
  | brokenKey
  | keyTwice (key : Bytes) (line column : Nat)
  | notText
  | noMap
  | notScalarTag
  | badVersion (version : Bytes)
  | badVersionLine
  | badTagLine
  | unknownAlias (name : Bytes)
  | unknownAnchor (name : Bytes)
  | notMap (kind : Bytes)
  | fieldTwice (key : Bytes)
  | notSwitch (text : Bytes)
  | keyNotText (kind : Bytes)

def quoteChar (c : Char) : Bytes :=
  let body : Bytes := if c == '\'' then [92, 39] else if c == '"' then [34] else Quoted.escape c
  39 :: body ++ [39]

def Flaw.message : Flaw → Bytes
  | tabInSingle => "tab character cannot be used for indentation in single-quoted text"
  | tabInDouble => "tab character cannot be used for indentation in double-quoted text"
  | openSingle => "could not find end character of single-quoted text"
  | openDouble => "could not find end character of double-quoted text"
  | dividerInQuote => "found unexpected document separator"
  | shortEscape => "not enough length for escaped UTF-16 character"
  | shortPair => "not enough length for escaped UTF-16 surrogate pair"
  | loneHigh => "found unexpected character after high surrogate for escaped UTF-16 surrogate pair"
  | badLow => "found unexpected low surrogate after high surrogate"
  | shortLongEscape => "not enough length for escaped UTF-32 character"
  | unknownEscape c => "found unknown escape character " ++ quoteChar c
  | badTag => "found invalid tag character"
  | tabInIndent => "found a tab character where an indentation space is expected"
  | longBlank => "invalid number of indent is specified after space only"
  | shallowLine => "invalid number of indent is specified in the multi-line header"
  | badOption o => "invalid header option: " ++ Quoted.quote o
  | tabBeforeKey => "tab character cannot use as a map key directly"
  | reserved c => quoteChar c ++ " is a reserved character"
  | tabAtStart => "found character '\t' that cannot start any token"
  | noBlock => "could not find multi-line content"
  | noAnchorName => "undefined anchor name"
  | noAnchorValue => "undefined anchor value"
  | dashAfterAnchor => "sequence entries are not allowed after anchor on the same line"
  | noAliasName => "undefined alias name"
  | noMergeKey => "could not find merge key"
  | noKey => "undefined map key"
  | badKeyName => "unexpected key name"
  | badKey => "found an invalid key for this map"
  | noDirective => "undefined directive value"
  | noDocument => "unexpected directive value. document not started"
  | valueAfterDivider => "value cannot be placed after document separator"
  | valueAfterEnd => "unexpected end content"
  | strayValue => "value is not allowed in this context"
  | strayListClose => "could not find '[' character corresponding to ']'"
  | strayMapClose => "could not find '\x7b' character corresponding to '\x7d'"
  | notScalar => "unexpected scalar value"
  | notScalarMark => "unexpected scalar value type"
  | noValueForAnchor => "could not find anchor value"
  | anchorTwice => "anchors cannot be used consecutively"
  | commaOrBrace => "',' or '\x7d' must be specified"
  | commaOrBracket => "',' or ']' must be specified"
  | commaFirst => "expected sequence element, but found ','"
  | noMapValue => "could not find map value"
  | noMapEntry => "could not find flow map content"
  | openMap => "could not find flow mapping end token '\x7d'"
  | openList => "sequence end token ']' not found"
  | dashAfterKey => "block sequence entries are not allowed in this context"
  | notMapPart => "non-map value is specified"
  | valueAfterEntry => "value is not allowed in this context. map key-value is pre-defined"
  | keyAfterKey => "mapping value is not allowed in this context"
  | anchorInMap => "anchor is not allowed in this context"
  | tagInMap => "tag is not allowed in this context"
  | anchorInList => "anchor is not allowed in this sequence context"
  | tagInList => "tag is not allowed in this sequence context"
  | brokenKey => "map key definition includes an implicit line break"
  | keyTwice k l c =>
    "mapping key " ++ Quoted.quote k ++ " already defined at [" ++ Bytes.ofNat l ++ ":" ++
      Bytes.ofNat c ++ "]"
  | notText => "unexpected token. required string token"
  | noMap => "could not find map"
  | notScalarTag => "specified not scalar tag"
  | badVersion v => "unknown YAML version " ++ Quoted.quote v
  | badVersionLine => "unexpected format YAML directive"
  | badTagLine => "unexpected format TAG directive"
  | unknownAlias n => "could not find alias " ++ Quoted.quote n
  | unknownAnchor n => "cannot find anchor by alias name " ++ n
  | notMap k => k ++ " was used where mapping is expected"
  | fieldTwice k => "duplicate key \"" ++ k ++ "\""
  | notSwitch t => "cannot convert " ++ Quoted.quote t ++ " to boolean"
  | keyNotText k => "cannot unmarshal " ++ k ++ " into Go value of type string"

end DistanceField.Yaml
