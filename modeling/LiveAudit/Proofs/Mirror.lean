import LiveAudit.Proofs.LoadMore

/-!
# A reconciler and a server whose list changes

A reconciler shows a list that changes at the server. Every change queues an update, which the
reconciler handles later; a page fetch reads the list at one moment while it is out, and is answered
later with the slice it has read (`Mirror.next`). Changes, updates, reads, answers and all other
inputs come in any order (`Mirror.Lawful`).

For the repository it is kept what the last refresh covers that was sent, and which rows were
appended since (`LastRefresh`). This is for the statements only; nothing that happens depends on it.
-/

namespace LiveAudit

open Reconciler (Input share)

/-- The last refresh that was sent for a repository, and what came since. -/
structure LastRefresh where
  /-- Number of rows it was sent for. -/
  limit : Nat
  /-- Number of rows held when it was sent. -/
  held : Nat
  /-- Whether a page was being appended when it was sent. -/
  crossed : Bool
  /-- Rows appended since, without those that it has replaced. -/
  appended : List Run
deriving DecidableEq, Repr

namespace LastRefresh

def none : LastRefresh :=
  ⟨0, 0, false, []⟩

/-- The refresh that is sent in a state. -/
def sent (s : RepoState) : LastRefresh :=
  ⟨s.window.refreshLimit.toNat, s.window.items.length, s.loadMore.isSome, []⟩

/-- After a deed that sends no refresh. -/
def taken (l : LastRefresh) (s : RepoState) : Deed → LastRefresh
  | .page fetch (.ok page) =>
    if fetch.epoch ≠ s.epoch then l
    else
      match fetch.reason with
      | .refresh => { l with appended := l.appended.drop (l.limit - l.held) }
      | .loadMore => { l with appended := l.appended ++ page.items }
  | _ => l

/-- After a deed. -/
def after (l : LastRefresh) (s : RepoState) (a : Deed) : LastRefresh :=
  if (s.act a).2.any Request.isRefresh then sent (s.act a).1 else l.taken s a

end LastRefresh

/-- A reconciler, and the list of one repository at the server. -/
structure Mirror where
  traffic : Traffic Reconciler
  /-- The runs of the repository, now. -/
  runs : List Run
  /-- Number of changes whose update has not been handled. -/
  hints : Nat
  /-- Fetches of the repository that have read its list, each with what it has read. -/
  reads : List (PageFetch × List Run)
  last : LastRefresh

namespace Mirror

/-- What can happen. -/
inductive Move where
  /-- The list changes, and an update is queued. -/
  | change (runs : List Run)
  /-- A fetch reads the list. -/
  | read (fetch : PageFetch)
  /-- A queued update is handled. -/
  | hint
  /-- A fetch is answered with what it has read. -/
  | answer (fetch : PageFetch)
  /-- Any other input. -/
  | input (i : Input)

def start (subject : Ident) (pageLimit noticeCapacity : UInt64) (runs : List Run) : Mirror :=
  ⟨.start (.new subject pageLimit noticeCapacity), runs, 0, [], .none⟩

/-- What a fetch has read. -/
def read? (m : Mirror) (f : PageFetch) : Option (List Run) :=
  (m.reads.find? fun p => p.1 = f).map (·.2)

/-- The page that answers a fetch. -/
def page (m : Mirror) (f : PageFetch) : Page :=
  Service.slice ((m.read? f).getD []) f.offset f.limit

variable (repo : Ident)

/-- An input reaches the reconciler. -/
def take (m : Mirror) (i : Input) : Mirror :=
  { m with
    traffic := m.traffic.next i
    last := (share (m.traffic.state.target i) repo).elim m.last
      (m.last.after (m.traffic.state.repo repo)) }

def next (m : Mirror) : Move → Mirror
  | .change runs => { m with runs := runs, hints := m.hints + 1 }
  | .read f => { m with reads := (f, m.runs) :: m.reads }
  | .hint => { m.take repo (.event (.auditUpdate ⟨repo⟩)) with hints := m.hints - 1 }
  | .answer f =>
    { m.take repo (.completion (.page f (.ok (m.page f)))) with
      reads := m.reads.filter fun p => p.1 ≠ f }
  | .input i => m.take repo i

/-- Whether an input answers a page fetch of the repository. -/
def AnswersPage : Input → Prop
  | .completion (.page f _) => f.repoId = repo
  | _ => False

instance decidableAnswersPage : ∀ i : Input, Decidable (AnswersPage repo i)
  | .completion (.page f _) => inferInstanceAs (Decidable (f.repoId = repo))
  | .completion (.sync _ _) | .completion (.projects _) => isFalse id
  | .load | .switchTo _ | .refresh | .startSync | .loadMore | .event _ => isFalse id

/-- Whether the pages that an input asks for, to be appended, begin where the rows held end. -/
def InPlace (d : Reconciler) (i : Input) : Prop :=
  ∀ q ∈ (d.step i).2, ∀ f ∈ q.page?, f.repoId = repo → f.reason = .loadMore →
    f.offset.toNat = (d.repo repo).window.items.length

/-- What may happen. Fetches of the repository are out when they read, read once, and are answered
with what they have read; none fails. -/
def Admits (m : Mirror) : Move → Prop
  | .change runs => runs.length < UInt64.size
  | .read f => .page f ∈ m.traffic.out ∧ f.repoId = repo ∧ m.read? f = none
  | .hint => 0 < m.hints
  | .answer f => .page f ∈ m.traffic.out ∧ f.repoId = repo ∧ (m.read? f).isSome
  | .input i => m.traffic.Admits i ∧ ¬AnswersPage repo i ∧ InPlace repo m.traffic.state i

def run (m : Mirror) : List Move → Mirror :=
  List.foldl (next repo) m

def Lawful : Mirror → List Move → Prop
  | _, [] => True
  | m, move :: rest => m.Admits repo move ∧ Lawful (m.next repo move) rest

/-- No update waits, and no page of the present generation is out. -/
def Quiet (m : Mirror) : Prop :=
  m.hints = 0 ∧ ∀ q ∈ m.traffic.out, ∀ f ∈ q.page?, f.repoId = repo →
    f.epoch ≠ (m.traffic.state.repo repo).epoch

/-- The window shows the beginning of the list, and the number of its rows. -/
def Converged (m : Mirror) : Prop :=
  (m.traffic.state.repo repo).window.items =
      m.runs.take (m.traffic.state.repo repo).window.items.length ∧
    (m.traffic.state.repo repo).window.total.toNat = m.runs.length

instance decidableInPlace (d : Reconciler) (i : Input) : Decidable (InPlace repo d i) :=
  inferInstanceAs (Decidable (∀ q ∈ (d.step i).2, ∀ f ∈ q.page?, f.repoId = repo →
    f.reason = .loadMore → f.offset.toNat = (d.repo repo).window.items.length))

instance decidableAdmits (m : Mirror) : ∀ move : Move, Decidable (m.Admits repo move)
  | .change runs => inferInstanceAs (Decidable (runs.length < UInt64.size))
  | .read f => inferInstanceAs (Decidable (.page f ∈ m.traffic.out ∧ f.repoId = repo ∧
      m.read? f = none))
  | .hint => inferInstanceAs (Decidable (0 < m.hints))
  | .answer f => inferInstanceAs (Decidable (.page f ∈ m.traffic.out ∧ f.repoId = repo ∧
      (m.read? f).isSome))
  | .input i => inferInstanceAs (Decidable (m.traffic.Admits i ∧ ¬AnswersPage repo i ∧
      InPlace repo m.traffic.state i))

instance decidableLawful : ∀ (m : Mirror) (moves : List Move), Decidable (m.Lawful repo moves)
  | _, [] => isTrue trivial
  | m, move :: rest =>
    have := decidableLawful (m.next repo move) rest
    inferInstanceAs (Decidable (m.Admits repo move ∧ (m.next repo move).Lawful repo rest))

instance (m : Mirror) : Decidable (m.Quiet repo) :=
  inferInstanceAs (Decidable (m.hints = 0 ∧ ∀ q ∈ m.traffic.out, ∀ f ∈ q.page?, f.repoId = repo →
    f.epoch ≠ (m.traffic.state.repo repo).epoch))

instance (m : Mirror) : Decidable (m.Converged repo) :=
  inferInstanceAs (Decidable (_ ∧ _))

end Mirror

end LiveAudit
