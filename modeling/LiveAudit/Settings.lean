import LiveAudit.Run
import LiveAudit.Text.Blank

/-!
# Settings

What is configured: where the server is, how many rows a page has, how long a request may take and
how many notices are kept. Settings are normalised when they are read: no count is zero, and an
address has no blanks around it and no slash at its end.
-/

namespace LiveAudit

structure Settings where
  baseUrl : Option String
  pageLimit : UInt64
  timeoutSecs : UInt64
  noticeCapacity : UInt64
deriving DecidableEq, Repr

namespace Settings

def default : Settings :=
  ⟨none, 20, 30, 20⟩

/-- An address without blanks around it and slashes at its end; `none` if nothing is left. -/
def normalUrl (url : String) : Option String :=
  let url := Text.dropEnd (· = '/') (Text.trim url.toList)
  if url.isEmpty then none else some (String.ofList url)

def normalized (s : Settings) : Settings :=
  { s with
    pageLimit := max s.pageLimit 1
    noticeCapacity := max s.noticeCapacity 1
    baseUrl := s.baseUrl.bind normalUrl }

/-- Seconds a request may take. -/
def requestTimeout (s : Settings) : UInt64 :=
  max s.timeoutSecs 1

/-! ### Written form -/

open Json in
def fields : Fields (Option String × UInt64 × UInt64 × UInt64 × Unit) :=
  .cons (.optional "base_url" Format.string.option default.baseUrl) <|
  .cons (.optional "page_limit" Format.word64 default.pageLimit) <|
  .cons (.optional "request_timeout_secs" Format.word64 default.timeoutSecs) <|
  .cons (.optional "notice_capacity" Format.size default.noticeCapacity) .done

def format : Json.Format Settings :=
  (fields.format "WatchConfig").map fun (url, limit, timeout, capacity, ()) =>
    ⟨url, limit, timeout, capacity⟩

open Json in
def toValue (s : Settings) : Value :=
  .object [("base_url", .ofStringOption s.baseUrl), ("page_limit", .ofWord s.pageLimit),
    ("request_timeout_secs", .ofWord s.timeoutSecs),
    ("notice_capacity", .ofWord s.noticeCapacity)]

end Settings

end LiveAudit
