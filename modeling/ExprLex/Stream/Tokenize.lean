import ExprLex.Scan.Feed
import ExprLex.Stream.Basic

namespace ExprLex

def tokenizeToStream (limits : Limits) (preferences : Preferences) (source : String) :
    Except Fault (Except Problem TokenStream × List Log.Event) := do
  let (result, scanner) ← tokenizeAll limits preferences source
  match result with
  | .error problem => return (.error problem, scanner.events)
  | .ok tokens =>
      let stream := TokenStream.withSource tokens source
      return (.ok stream, scanner.events ++ [stream.assembledEvent])

end ExprLex
