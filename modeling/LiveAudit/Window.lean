import LiveAudit.Failure
import LiveAudit.Word

/-!
# Windows

The part of a repository's runs that is held here, newest first. A page that was fetched from an
offset with a limit replaces the rows it covers; rows behind them stay, and a page that begins where
the window ends is appended. The offset of a window is that of its last page, and never points
behind the rows it holds.
-/

namespace LiveAudit

structure Window where
  repoId : Ident
  items : List Run
  /-- Number of all runs of the repository, as last reported. -/
  total : UInt64
  /-- Where the furthest page begins that has been loaded. -/
  offset : UInt64
  /-- Rows of a page. -/
  limit : UInt64
  loading : Bool
deriving DecidableEq, Repr

namespace Window

def new (repo : Ident) (limit : UInt64) : Window :=
  ⟨repo, [], 0, 0, max limit 1, false⟩

/-- The window without any rows. -/
def reset (w : Window) : Window :=
  { w with items := [], total := 0, offset := 0, loading := false }

/-- Number of rows held, as a word. -/
def rows (w : Window) : UInt64 :=
  capWord w.items.length

/-- Where the page behind the furthest one begins. -/
def nextOffset (w : Window) : UInt64 :=
  capWord (w.offset.toNat + w.limit.toNat)

def hasMore (w : Window) : Bool :=
  w.nextOffset < w.total

/-- Limit of a fetch from the top that covers every row held. -/
def refreshLimit (w : Window) : UInt64 :=
  max w.rows w.limit

/-- Where the last page of the held rows begins. -/
def lastPageOffset (w : Window) : UInt64 :=
  let limit := max w.limit.toNat 1
  capWord ((w.rows.toNat - 1) / limit * limit)

/-- Merges a page that was fetched from `offset` with `limit`. -/
def applySpan (w : Window) (offset limit : UInt64) (page : Page) : Window :=
  let start := min offset.toNat w.items.length
  let merged : Window :=
    { w with
      items := w.items.take start ++ page.items ++ w.items.drop (start + limit.toNat)
      total := page.total }
  { merged with offset := min (max w.offset offset) merged.lastPageOffset }

/-- Merges a page of the window's own size. -/
def applyPage (w : Window) (offset : UInt64) (page : Page) : Window :=
  w.applySpan offset w.limit page

/-- Merges the answer to a page request; a failure leaves the window as it is. -/
def loadPage (w : Window) (offset : UInt64) : Except Failure Page → Window × Except Failure Unit
  | .ok page => (w.applyPage offset page, .ok ())
  | .error e => (w, .error e)

open Json in
def toValue (w : Window) : Value :=
  .object [("repo_id", .string w.repoId), ("items", .array (w.items.map Run.toValue)),
    ("total", .ofWord w.total), ("offset", .ofWord w.offset), ("limit", .ofWord w.limit),
    ("loading", .bool w.loading)]

end Window

end LiveAudit
