import Anchored.Yaml.Mark

/-!
# What makes a text no YAML

A fault has a problem, the place where it was noticed, and often what was being read there, with
the place where that started.
-/

namespace Anchored.Yaml

/-- What is wrong. -/
inductive Problem where
  | expectedColon
  | expectedAnchorName
  | expectedBracketedTagEnd
  | expectedTagUri
  | expectedUriOctet
  | badLeadingOctet
  | badTrailingOctet
  | expectedBlankAfterTag
  | expectedBlank
  | expectedTagMark
  | expectedDirectiveName
  | directiveNameEnd
  | unknownDirective
  | expectedLineEnd
  | expectedVersionPoint
  | expectedVersionNumber
  | longVersionNumber
  | zeroIndent
  | tabInBlockIndent
  | tabInPlainIndent
  | documentMark
  | endOfStream
  | unknownEscape
  | expectedHex
  | badCodePoint
  | unexpectedColon
  | cannotStartToken
  | entryNotAllowed
  | keyNotAllowed
  | valueNotAllowed
  | expectedDocumentStart
  | expectedStreamStart
  | duplicateVersion
  | incompatibleVersion
  | duplicateTagDirective
  | undefinedTagHandle
  | expectedNode
  | expectedDash
  | expectedKey
  | expectedListEnd
  | expectedMapEnd
  deriving DecidableEq, Repr

/-- The words for a problem. -/
def Problem.message : Problem → String
  | .expectedColon => "could not find expected ':'"
  | .expectedAnchorName => "did not find expected alphabetic or numeric character"
  | .expectedBracketedTagEnd => "did not find the expected '>'"
  | .expectedTagUri => "did not find expected tag URI"
  | .expectedUriOctet => "did not find URI escaped octet"
  | .badLeadingOctet => "found an incorrect leading UTF-8 octet"
  | .badTrailingOctet => "found an incorrect trailing UTF-8 octet"
  | .expectedBlankAfterTag => "did not find expected whitespace or line break"
  | .expectedBlank => "did not find expected whitespace"
  | .expectedTagMark => "did not find expected '!'"
  | .expectedDirectiveName => "could not find expected directive name"
  | .directiveNameEnd => "found unexpected non-alphabetical character"
  | .unknownDirective => "found unknown directive name"
  | .expectedLineEnd => "did not find expected comment or line break"
  | .expectedVersionPoint => "did not find expected digit or '.' character"
  | .expectedVersionNumber => "did not find expected version number"
  | .longVersionNumber => "found extremely long version number"
  | .zeroIndent => "found an indentation indicator equal to 0"
  | .tabInBlockIndent => "found a tab character where an indentation space is expected"
  | .tabInPlainIndent => "found a tab character that violates indentation"
  | .documentMark => "found unexpected document indicator"
  | .endOfStream => "found unexpected end of stream"
  | .unknownEscape => "found unknown escape character"
  | .expectedHex => "did not find expected hexadecimal number"
  | .badCodePoint => "found invalid Unicode character escape code"
  | .unexpectedColon => "found unexpected ':'"
  | .cannotStartToken => "found character that cannot start any token"
  | .entryNotAllowed => "block sequence entries are not allowed in this context"
  | .keyNotAllowed => "mapping keys are not allowed in this context"
  | .valueNotAllowed => "mapping values are not allowed in this context"
  | .expectedDocumentStart => "did not find expected <document start>"
  | .expectedStreamStart => "did not find expected <stream-start>"
  | .duplicateVersion => "found duplicate %YAML directive"
  | .incompatibleVersion => "found incompatible YAML document"
  | .duplicateTagDirective => "found duplicate %TAG directive"
  | .undefinedTagHandle => "found undefined tag handle"
  | .expectedNode => "did not find expected node content"
  | .expectedDash => "did not find expected '-' indicator"
  | .expectedKey => "did not find expected key"
  | .expectedListEnd => "did not find expected ',' or ']'"
  | .expectedMapEnd => "did not find expected ',' or '\x7d'"

/-- What was being read when a problem was noticed. -/
inductive Context where
  | simpleKey
  | anchor
  | alias
  | tag
  | tagUri
  | tagDirective
  | tagDirectiveHandle
  | tagDirectiveHandleEnd
  | tagDirectiveUri
  | directive
  | versionDirective
  | blockScalar
  | quotedScalar
  | quotedEscape
  | plainScalar
  | nextToken
  | node
  | blockNode
  | flowNode
  | blockSequence
  | blockMapping
  | flowSequence
  | flowMapping
  deriving DecidableEq, Repr

/-- The words for a context. -/
def Context.message : Context → String
  | .simpleKey => "while scanning a simple key"
  | .anchor => "while scanning an anchor"
  | .alias => "while scanning an alias"
  | .tag => "while scanning a tag"
  | .tagUri => "while parsing a tag"
  | .tagDirective => "while scanning a %TAG directive"
  | .tagDirectiveHandle => "while scanning a tag directive"
  | .tagDirectiveHandleEnd => "while parsing a tag directive"
  | .tagDirectiveUri => "while parsing a %TAG directive"
  | .directive => "while scanning a directive"
  | .versionDirective => "while scanning a %YAML directive"
  | .blockScalar => "while scanning a block scalar"
  | .quotedScalar => "while scanning a quoted scalar"
  | .quotedEscape => "while parsing a quoted scalar"
  | .plainScalar => "while scanning a plain scalar"
  | .nextToken => "while scanning for the next token"
  | .node => "while parsing a node"
  | .blockNode => "while parsing a block node"
  | .flowNode => "while parsing a flow node"
  | .blockSequence => "while parsing a block collection"
  | .blockMapping => "while parsing a block mapping"
  | .flowSequence => "while parsing a flow sequence"
  | .flowMapping => "while parsing a flow mapping"

/-- A fault of a text. -/
inductive Malformed where
  /-- A character that no YAML text may hold, at a byte. -/
  | control (offset : Nat)
  | found (problem : Problem) (mark : Mark) (context : Option (Context × Mark))
  deriving DecidableEq, Repr

/-- The text of a fault. The place of the context is named where it differs from that of the
problem. -/
def Malformed.message : Malformed → String
  | .control offset =>
    "control characters are not allowed" ++
      if offset = 0 then "" else " at position " ++ toString offset
  | .found problem mark context =>
    problem.message ++ mark.suffix ++
      match context with
      | none => ""
      | some (context, started) =>
        ", " ++ context.message ++
          if started.line = mark.line ∧ started.column = mark.column then "" else started.suffix

end Anchored.Yaml
