import ExprLex.Limits
import ExprLex.Proofs.Position

namespace ExprLex.Limits

/-- What every build checks of its limits. -/
structure Admissible (limits : Limits) : Prop where
  source_pos : limits.sourceBytes ≠ 0
  tokens_pos : limits.tokens ≠ 0
  source_le : limits.sourceBytes ≤ 100000000
  tokens_le : limits.tokens ≤ 10000000
  string_le : limits.stringBytes ≤ limits.sourceBytes
  log_le : 100 ≤ limits.logEvents
  production_le : limits.profile = "production" → limits.sourceBytes ≤ 10000000

theorem development_admissible : development.Admissible := by
  constructor <;> decide

theorem production_admissible : production.Admissible := by
  constructor <;> decide

theorem Admissible.countable {limits : Limits} (admissible : limits.Admissible) {source : String}
    (small : source.utf8ByteSize ≤ limits.sourceBytes) : Position.Countable source.toList := by
  have short := Text.length_le_bytes source.toList
  have bound := admissible.source_le
  rw [Text.utf8ByteSize_eq] at small
  rw [Position.Countable, Position.counterBound]
  omega

end ExprLex.Limits
