import TokenHighlight.Kind.Set

/-!
# Groups of kinds

The sets of kinds that the default classification treats alike.
-/

namespace TokenHighlight

namespace KindSet

/-- Punctuation and operators. -/
def punctuation : KindSet :=
  ofList
    [.colon, .semicolon, .dot, .openParen, .closeParen, .openBracket, .closeBracket, .comma,
     .assign, .star, .plus, .question, .minus, .slash, .percent, .less, .lessEq, .greater,
     .greaterEq, .equal, .notEqual, .atSign, .arrow, .hash]

/-- Reserved words of the query language, time units included. -/
def reserved : KindSet :=
  ofList
    [.kwStream, .kwDefine, .kwFunction, .kwTrigger, .kwTable, .kwPlan, .kwFrom, .kwPartition,
     .kwWindow, .kwSelect, .kwGroup, .kwBy, .kwHaving, .kwInsert, .kwDelete, .kwUpdate, .kwReturn,
     .kwEvents, .kwInto, .kwOutput, .kwExpired, .kwCurrent, .kwSnapshot, .kwFor, .kwRaw, .kwOf,
     .kwAs, .kwAt, .kwOr, .kwAnd, .kwIn, .kwOn, .kwIs, .kwNot, .kwWithin, .kwWith, .kwBegin,
     .kwEnd, .kwNull, .kwEvery, .kwLast, .kwAll, .kwFirst, .kwJoin, .kwInner, .kwOuter, .kwRight,
     .kwLeft, .kwFull, .kwUnidirectional, .kwYears, .kwMonths, .kwWeeks, .kwDays, .kwHours,
     .kwMinutes, .kwSeconds, .kwMilliseconds]

/-- Names of the primitive attribute types. -/
def typeNames : KindSet := ofList [.tyInt, .tyLong, .tyFloat, .tyDouble, .tyBool, .tyObject]

/-- Literals, except for the dedicated string kind. -/
def literals : KindSet :=
  ofList
    [.intLiteral, .longLiteral, .floatLiteral, .doubleLiteral, .litTrue, .litFalse, .stringLiteral,
     .quotedIdent]

/-- Tokens that hold text of another language. -/
def embedded : KindSet := ofList [.script]

/-- White space and characters that the lexer could not match. -/
def lexerLeftovers : KindSet := ofList [.spaces, .unexpectedChar]

end KindSet

end TokenHighlight
