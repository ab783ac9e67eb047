namespace ExprLex

/-- Why an operation on text has no result: the request was outside what the operation is
defined on. Scanning itself never raises one. -/
inductive Fault where
  | overflow
  /-- A byte range leaves the text, ends inside a character, or runs backwards. -/
  | badCut
  | reversedSpan
  | negativeCount
deriving DecidableEq

end ExprLex
