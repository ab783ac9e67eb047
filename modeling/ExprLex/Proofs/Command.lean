import ExprLex.Command.Run
import ExprLex.Proofs.Command.Table
import ExprLex.Proofs.Exchange

/-!
What the command prints: the tokens of the scan of its input, or the problem that ends the scan.
-/
namespace ExprLex

variable {limits : Limits} {source : String} {tokens : List Token} {last : Item}
  {items : List Item} {problem : Problem}

namespace Command

/-! ## Problems with their lines -/

def headline (problem : Problem) : String :=
  "error: [" ++ problem.code ++ "] " ++ problem.message ++ "\n"

/-- Whether a run has printed some tokens, as rows or as JSON, and with them the statistics if they
are asked for. -/
structure Outcome.Lists (outcome : Outcome) (options : Options) (metrics : Metrics)
    (tokens : List Token) : Prop where
  exit : outcome.exit = 0
  rows : options.json = false → ∃ rows summary, outcome.stdout = rows ++ summary ∧
    Rows tokens rows ∧ if options.metrics then Summary metrics summary else summary = ""
  json : options.json = true → ∃ found items, Json.Parsed.ofText? outcome.stdout = some found ∧
    items.mapM Token.ofJson? = some tokens ∧
    if options.metrics then ∃ figures, metrics.HeldIn figures ∧
      found.fields? ["metrics", "tokens"] = some [figures, .array items]
    else found = .array items

def Outcome.Fails (outcome : Outcome) (problem : Problem) : Prop :=
  outcome.exit = 1 ∧ outcome.stdout = "" ∧
    ∃ log text, outcome.stderr = log ++ (headline problem ++ text)

/-- Whether the outcome of a run is that of the items of a scan: their tokens, without the hidden
ones unless these are asked for, or their failure. The statistics count the hidden ones, too. -/
structure Outcome.Shows (outcome : Outcome) (options : Options) (preferences : Preferences)
    (items : List Item) : Prop where
  lists : ∀ tokens, items = tokens.map .ok →
    ∃ metrics, metrics.Exact preferences (tokens.filter (!·.isEnd)) ∧
      outcome.Lists options metrics
        (if options.raw then tokens else tokens.filter (!·.isHidden))
  fails : ∀ problem, .error problem ∈ items → outcome.Fails problem

variable {surroundings : Surroundings} {arguments : List String} {options : Options}
  {loading : List Log.Event}

end Command

/-! ## Agreement -/

end ExprLex
