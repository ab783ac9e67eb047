import ExprLex.Scan.Scanner

namespace ExprLex

structure Feed where
  scanner : Scanner
  showHidden : Bool
  closed : Bool := false

namespace Feed

def raw (scanner : Scanner) : Feed := { scanner, showHidden := true }

def visible (scanner : Scanner) : Feed := { scanner, showHidden := false }

def pull (feed : Feed) : Except Fault (Option Item × Feed) :=
  if feed.closed then .ok (none, feed)
  else match feed.scanner.next with
    | .error fault => .error fault
    | .ok (item, scanner) => .ok (some item, { feed with scanner, closed := Item.isLast item })

def pullVisible : (fuel : Nat) → Feed → Except Fault (Option Item × Feed)
  | 0, feed => .ok (none, feed)
  | fuel + 1, feed =>
      match feed.pull with
      | .error fault => .error fault
      | .ok (none, after) => .ok (none, after)
      | .ok (some item, after) =>
          if Item.isHidden item then pullVisible fuel after else .ok (some item, after)

/-- The next item of the feed. Every hidden token takes at least one byte of the text, so the bytes
bound how many can be passed over. -/
def next (feed : Feed) : Except Fault (Option Item × Feed) :=
  if feed.showHidden then feed.pull
  else feed.pullVisible (feed.scanner.source.utf8ByteSize + 1)

end Feed
end ExprLex
