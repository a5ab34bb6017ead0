import EmeraldDb.Lib.Custody
import EmeraldDb.Lib.Transition
import EmeraldDb.Oss.Interrupt

/-
  The listener and the descriptors of the process.

  The listener opens a listening socket, accepts connections
  and starts an agent for each of them; when a socket fails it
  opens another one, at most six in all.  An agent makes a
  socket object of its descriptor and closes it at its end,
  if a thread runs it at all: an EDU may have none, or may
  miss the event that brings the descriptor.  The process has
  one table of descriptors, and the kernel gives a closed one
  to the next that asks.

  Key definitions include:
    * `OssHandle`
    * `TcpListener.Step`
    * `Process.Step`
    * `Process.Sound`

  Key results include:
    * `Process.Sound.step`
    * `process_descriptors`
    * `connections_settled`
    * `listener_returns`
-/

namespace EmeraldDb

------------------------------------------------------------
-- Socket Objects
------------------------------------------------------------

/- The descriptor of a socket object, and whether it is open. -/
structure OssHandle where
  fd : Int := 0
  isInit : Bool := false
deriving DecidableEq, Repr

namespace OssHandle

/- The object made of a descriptor; `named` by `getsockname`. -/
def ofFd
    (fd : Int)
    (named : Bool) : OssHandle :=
  ⟨fd, named⟩

/- `sock` is what the kernel answers, `none` for -1. -/
def init
    (h : OssHandle)
    (sock : Option Int) : Int × OssHandle :=
  if h.isInit then (edbOk, h)
  else
    match sock with
    | none => (edbNetwork, { h with fd := -1 })
    | some fd => (edbOk, ⟨fd, true⟩)

/- The object behind `close` and behind its destructor. -/
def close (h : OssHandle) : OssHandle :=
  { h with isInit := false }

def bindListen
    (h : OssHandle)
    (binds listens : Bool) : Int × OssHandle :=
  if !binds then (edbNetwork, h.close)
  else if !listens then (edbNetwork, h.close)
  else (edbOk, h)

/- The descriptor that `close` closes. -/
def held (h : OssHandle) : Option Int :=
  if h.isInit then some h.fd else none

end OssHandle

------------------------------------------------------------
-- The Listener
------------------------------------------------------------

/- `PMD_TCPLISTENER_RETRY`. -/
def tcpListenerRetry : Nat := 5

/- Where `pmdTcpListenerEntryPoint` is. -/
inductive ListenerPlace
| outer
| init
| bind
| activate
| inner
| accept
| accepted (c : Int)
| reject (c : Int)
| drop (newSock : OssHandle)
| wait
| next
| leave
| returned
deriving DecidableEq, Repr

structure TcpListener where
  retry : Nat := 0
  socket : OssHandle := {}
  rc : Int := edbOk
  place : ListenerPlace := .outer
deriving DecidableEq, Repr

/-
  The calls that the listener makes.  `close` is that of the
  object made of a connection, with its destructor, and
  `destruct` the destructor of the listening socket.
-/
inductive ListenerAct
| test
| socket (sock : Option Int)
| bind (h : OssHandle) (binds listens : Bool)
| status (rc : Int)
| accept (h : OssHandle) (rc : Int) (c : Int)
| start (c : Int) (agentEDU : Option Nat)
| name (c : Int) (named : Bool)
| close (newSock : OssHandle)
| destruct (h : OssHandle)
deriving DecidableEq, Repr

/-
  One step of the listener while the database is `down` or
  not.  What the manager answers is arbitrary.
-/
inductive TcpListener.Step
    (down : Bool)
    (l : TcpListener) :
    ListenerAct → TcpListener → Prop
| enter
    (hPlace : l.place = .outer)
    (hRetry : l.retry ≤ tcpListenerRetry)
    (hUp : down = false) :
    Step down l .test
      { l with retry := l.retry + 1, socket := {}, place := .init }
| finish
    (hPlace : l.place = .outer)
    (hEnd : tcpListenerRetry < l.retry ∨ down = true) :
    Step down l .test { l with place := .returned }
| init
    (sock : Option Int)
    (hPlace : l.place = .init) :
    Step down l (.socket sock)
      { l with
        socket := (l.socket.init sock).2
        rc := (l.socket.init sock).1
        place :=
          if (l.socket.init sock).1 = edbOk then .bind
          else .leave }
| bind
    (binds listens : Bool)
    (hPlace : l.place = .bind) :
    Step down l (.bind l.socket binds listens)
      { l with
        socket := (l.socket.bindListen binds listens).2
        rc := (l.socket.bindListen binds listens).1
        place :=
          if (l.socket.bindListen binds listens).1 = edbOk then
            .activate
          else .leave }
| activate
    (rc : Int)
    (hPlace : l.place = .activate) :
    Step down l (.status rc)
      { l with
        rc := rc
        place := if rc = edbOk then .inner else .leave }
| inner
    (hPlace : l.place = .inner) :
    Step down l .test
      { l with place := if down then .wait else .accept }
| accept
    (e e' : OssEndpoint)
    (c c' rc : Int)
    (hPlace : l.place = .accept)
    (hInit : e.init = l.socket.isInit)
    (hCall : e.accept c = (some rc, c', e')) :
    Step down l (.accept l.socket rc c')
      { l with
        socket := { l.socket with isInit := e'.init }
        rc := rc
        place := .accepted c' }
| timeout
    (c : Int)
    (hPlace : l.place = .accepted c)
    (hRc : l.rc = edbTimeout) :
    Step down l .test
      { l with rc := edbOk, place := .inner }
| failDown
    (c : Int)
    (hPlace : l.place = .accepted c)
    (hTime : l.rc ≠ edbTimeout)
    (hRc : l.rc ≠ edbOk)
    (hDown : down = true) :
    Step down l .test
      { l with rc := edbOk, place := .leave }
| failUp
    (c : Int)
    (hPlace : l.place = .accepted c)
    (hTime : l.rc ≠ edbTimeout)
    (hRc : l.rc ≠ edbOk)
    (hUp : down = false) :
    Step down l .test { l with place := .wait }
| start
    (c : Int)
    (id : Nat)
    (hPlace : l.place = .accepted c)
    (hRc : l.rc = edbOk) :
    Step down l (.start c (some id))
      { l with place := .inner }
| startFails
    (c rc : Int)
    (hPlace : l.place = .accepted c)
    (hRc : l.rc = edbOk)
    (hFails : rc ≠ edbOk) :
    Step down l (.start c none)
      { l with rc := rc, place := .reject c }
| reject
    (c : Int)
    (named : Bool)
    (hPlace : l.place = .reject c) :
    Step down l (.name c named)
      { l with place := .drop (.ofFd c named) }
| drop
    (newSock : OssHandle)
    (hPlace : l.place = .drop newSock) :
    Step down l (.close newSock) { l with place := .inner }
| wait
    (rc : Int)
    (hPlace : l.place = .wait) :
    Step down l (.status rc)
      { l with
        rc := rc
        place := if rc = edbOk then .next else .leave }
| next
    (hPlace : l.place = .next) :
    Step down l (.destruct l.socket)
      { l with socket := l.socket.close, place := .outer }
| leave
    (hPlace : l.place = .leave) :
    Step down l (.destruct l.socket)
      { l with socket := l.socket.close, place := .returned }

------------------------------------------------------------
-- Agents
------------------------------------------------------------

/-
  Where an agent is with its descriptor: it has none, has got
  one with its start, or has made a socket object of it.
-/
inductive AgentPlace
| absent
| handed (socketfd : Int)
| serving (h : OssHandle)
deriving DecidableEq, Repr

/-
  Every way out of an agent that runs leads through `close`.
  One that no thread runs misses its descriptor.
-/
inductive AgentAct
| miss (fd : Int)
| name (fd : Int) (named : Bool)
| use (fd : Int)
| close (h : OssHandle)
deriving DecidableEq, Repr

inductive AgentPlace.Step :
    AgentPlace → AgentAct → AgentPlace → Prop
| miss (fd : Int) :
    Step (.handed fd) (.miss fd) .absent
| name (fd : Int) (named : Bool) :
    Step (.handed fd) (.name fd named)
      (.serving (.ofFd fd named))
| use (h : OssHandle) :
    Step (.serving h) (.use h.fd) (.serving h)
| close (h : OssHandle) :
    Step (.serving h) (.close h) .absent

------------------------------------------------------------
-- The Process
------------------------------------------------------------

/-
  Who has to close a descriptor: the listening socket, the
  listener for a connection, or an agent.  Agents are counted
  in the order in which they are started.
-/
inductive FdOwner
| listener
| pending
| agent (k : Nat)
deriving DecidableEq, Repr

/-
  The table of descriptors with their owners, whether the
  database is down, the listener, and the agents with the
  number of those that were started.
-/
structure Process where
  table : Int → Custody FdOwner
  down : Bool
  listener : TcpListener
  started : Nat
  agents : Nat → AgentPlace

/- The kernel gives out only descriptors that are free. -/
def ListenerAct.Allowed
    (s : Process) : ListenerAct → Prop
| .socket (some fd) => s.table fd = .free
| .accept _ rc c => rc = edbOk → s.table c = .free
| _ => True

namespace OssHandle

variable {ο : Type}

/- The table when an object closes its descriptor. -/
def closeIn
    (h : OssHandle)
    (table : Int → Custody ο) : Int → Custody ο :=
  if h.isInit then Function.update table h.fd .free else table

/-
  The table when the only object of a descriptor goes.  If it
  does not close the descriptor, nobody does.
-/
def release
    (h : OssHandle)
    (table : Int → Custody ο) : Int → Custody ο :=
  Function.update table h.fd
    (if h.isInit then .free else .lost)

end OssHandle

/- The table after a step of the listener. -/
def ListenerAct.after
    (started : Nat)
    (table : Int → Custody FdOwner) :
    ListenerAct → Int → Custody FdOwner
| .socket (some fd) =>
    Function.update table fd (.held .listener)
| .bind h binds listens =>
    if binds && listens then table else h.closeIn table
| .accept h rc c =>
    if rc = edbOk then Function.update table c (.held .pending)
    else if rc = edbTimeout then table
    else h.closeIn table
| .start c (some _) =>
    Function.update table c (.held (.agent started))
| .close newSock => newSock.release table
| .destruct h => h.closeIn table
| _ => table

/-
  The agents after a step of the listener.  The EDU that runs
  an agent may be one that ran another one before.
-/
def ListenerAct.handOver
    (started : Nat)
    (agents : Nat → AgentPlace) :
    ListenerAct → Nat → AgentPlace
| .start c (some _) =>
    Function.update agents started (.handed c)
| _ => agents

/- How many agents a step of the listener starts. -/
def ListenerAct.starts : ListenerAct → Nat
| .start _ (some _) => 1
| _ => 0

/- The table after a step of an agent. -/
def AgentAct.after
    (table : Int → Custody FdOwner) :
    AgentAct → Int → Custody FdOwner
| .miss fd => Function.update table fd .lost
| .close h => h.release table
| _ => table

/-
  A step of the listener, of an agent, or of the rest of the
  process, which opens and closes its own descriptors.
-/
inductive ProcessAct
| listener (a : ListenerAct)
| agent (k : Nat) (a : AgentAct)
| rest (fd : Int)
| shutdown
deriving DecidableEq, Repr

inductive Process.Step
    (s : Process) :
    ProcessAct → Process → Prop
| listener
    (a : ListenerAct)
    (l : TcpListener)
    (hStep : s.listener.Step s.down a l)
    (hAllowed : a.Allowed s) :
    Step s (.listener a)
      { s with
        table := a.after s.started s.table
        listener := l
        started := s.started + a.starts
        agents := a.handOver s.started s.agents }
| agent
    (k : Nat)
    (a : AgentAct)
    (p : AgentPlace)
    (hStep : (s.agents k).Step a p) :
    Step s (.agent k a)
      { s with
        table := a.after s.table
        agents := Function.update s.agents k p }
| restOpens
    (fd : Int)
    (hFree : s.table fd = .free) :
    Step s (.rest fd)
      { s with table := Function.update s.table fd .foreign }
| restCloses
    (fd : Int)
    (hForeign : s.table fd = .foreign) :
    Step s (.rest fd)
      { s with table := Function.update s.table fd .free }
| shutdown :
    Step s .shutdown { s with down := true }

/- The process before the listener has begun. -/
def Process.init : Process where
  table := fun _ => .free
  down := false
  listener := {}
  started := 0
  agents := fun _ => .absent

------------------------------------------------------------
-- Who Holds What
------------------------------------------------------------

/- The connection that the listener has not settled yet. -/
def TcpListener.pending (l : TcpListener) : Option Int :=
  match l.place with
  | .accepted c => if l.rc = edbOk then some c else none
  | .reject c => some c
  | .drop newSock => some newSock.fd
  | _ => none

def AgentPlace.held : AgentPlace → Option Int
| .absent => none
| .handed socketfd => some socketfd
| .serving h => some h.fd

def Process.held
    (s : Process) : FdOwner → Option Int
| .listener => s.listener.socket.held
| .pending => s.listener.pending
| .agent k => (s.agents k).held

/- Whether the listening socket is open, place by place. -/
def TcpListener.Tidy (l : TcpListener) : Prop :=
  match l.place with
  | .outer => l.socket.isInit = false
  | .init => l.socket.isInit = false
  | .returned => l.socket.isInit = false
  | .accepted _ =>
      l.rc = edbOk ∨ l.rc = edbTimeout → l.socket.isInit = true
  | .wait => True
  | .next => True
  | .leave => True
  | _ => l.socket.isInit = true

theorem waitAccept_code
    {selects rest : List SelectResult}
    {rc : Int}
    (hWait : waitAccept selects = (some rc, rest)) :
    rc = edbOk ∨ rc = edbTimeout ∨ rc = edbNetwork := by
  fun_induction waitAccept selects <;> grind

/- What `accept` returns, and whether the socket stays open. -/
theorem OssEndpoint.accept_open
    {e e' : OssEndpoint}
    {c c' rc : Int}
    (hCall : e.accept c = (some rc, c', e')) :
    (rc = edbOk ∨ rc = edbTimeout) ∧ e'.init = e.init ∨
      rc = edbNetwork ∧ e'.init = false := by
  unfold OssEndpoint.accept OssEndpoint.finishAccept
    OssEndpoint.close at hCall
  cases hWait : waitAccept e.selects with
  | mk result rest =>
      rw [hWait] at hCall
      cases result with
      | none => simp at hCall
      | some code =>
          rcases waitAccept_code hWait with rfl | rfl | rfl
          · have hNe : edbOk ≠ edbTimeout := by decide
            cases hAccepts : e.accepts with
            | nil => simp [hAccepts, hNe] at hCall
            | cons r rest =>
                cases r <;> simp [hAccepts, hNe] at hCall <;>
                  grind
          · simp at hCall
            grind
          · simp at hCall
            grind

namespace Process

variable {s t : Process}

/-
  Each owner has its descriptors in the table, the listening
  socket is open where the listener uses it, and agents that
  were not started have no descriptor.
-/
structure Sound (s : Process) : Prop where
  backed : Backed s.table s.held
  tidy : s.listener.Tidy
  fresh : ∀ k, s.started ≤ k → s.agents k = .absent

/- A step of the listener keeps its place tidy. -/
theorem tidy_step
    {down : Bool}
    {a : ListenerAct}
    {l l' : TcpListener}
    (hTidy : l.Tidy)
    (hStep : l.Step down a l') :
    l'.Tidy := by
  cases hStep with
  | init sock hPlace =>
      simp only [TcpListener.Tidy, hPlace] at hTidy
      cases sock <;>
        simp [TcpListener.Tidy, OssHandle.init, hTidy]
  | bind binds listens hPlace =>
      simp only [TcpListener.Tidy, hPlace] at hTidy
      cases binds <;> cases listens <;>
        simp [TcpListener.Tidy, OssHandle.bindListen, hTidy]
  | accept e e' c c' rc hPlace hInit hCall =>
      simp only [TcpListener.Tidy, hPlace] at hTidy
      have hOpen := OssEndpoint.accept_open hCall
      simp only [TcpListener.Tidy]
      grind
  | _ =>
      simp_all [TcpListener.Tidy, OssHandle.close]
      try grind

/- The owners' descriptors when the listener moves. -/
theorem held_moved
    (s : Process)
    (table : Int → Custody FdOwner)
    (l : TcpListener) :
    held { s with table := table, listener := l } =
      Function.update
        (Function.update s.held .listener l.socket.held)
        .pending l.pending := by
  funext o
  cases o <;> simp [held]

/- The listener moves and holds what it held. -/
theorem backed_kept
    (hBacked : Backed s.table s.held)
    {l : TcpListener}
    (hSocket : l.socket.held = s.listener.socket.held)
    (hPending : l.pending = s.listener.pending) :
    Backed s.table (held { s with listener := l }) := by
  have hHeld : held { s with listener := l } = s.held := by
    rw [held_moved s s.table l, hSocket, hPending]
    funext o
    cases o <;> simp [held]
  rw [hHeld]
  exact hBacked

/- The listener moves and its socket changes. -/
theorem backed_socket
    {table : Int → Custody FdOwner}
    {l : TcpListener}
    (hPending : l.pending = s.listener.pending)
    (hBacked : Backed table
      (Function.update s.held .listener l.socket.held)) :
    Backed table
      (held { s with table := table, listener := l }) := by
  rw [held_moved, hPending]
  convert hBacked using 1
  funext o
  cases o <;> simp [held]

/- The listener moves and its connection changes. -/
theorem backed_pending
    {table : Int → Custody FdOwner}
    {l : TcpListener}
    (hSocket : l.socket.held = s.listener.socket.held)
    (hBacked : Backed table
      (Function.update s.held .pending l.pending)) :
    Backed table
      (held { s with table := table, listener := l }) := by
  rw [held_moved, hSocket]
  convert hBacked using 1
  funext o
  cases o <;> simp [held]

/- An agent starts with the listener's connection. -/
theorem backed_started
    {table : Int → Custody FdOwner}
    {c : Int}
    {k : Nat}
    (hBacked : Backed table
      (Function.update (Function.update s.held .pending none)
        (.agent k) (some c))) :
    Backed table
      (held { s with
        table := table
        listener := { s.listener with place := .inner }
        agents := Function.update s.agents k (.handed c) }) := by
  convert hBacked using 1
  funext o
  cases o with
  | listener => simp [held]
  | pending => simp [held, TcpListener.pending]
  | agent j =>
      by_cases hEq : j = k
      · simp [held, hEq, AgentPlace.held]
      · simp [held, hEq]

variable {table : Int → Custody FdOwner}
variable {owns : FdOwner → Option Int} {o : FdOwner}

/- The owner closes what it has open. -/
theorem backed_closeIn
    (hBacked : Backed table owns)
    {h : OssHandle}
    (hHolds : owns o = h.held) :
    Backed (h.closeIn table) (Function.update owns o none) := by
  unfold OssHandle.held at hHolds
  unfold OssHandle.closeIn
  split at hHolds
  · rename_i hInit
    rw [if_pos hInit]
    exact hBacked.drop hHolds (by simp)
  · rename_i hInit
    rw [if_neg hInit, ← hHolds, Function.update_eq_self]
    exact hBacked

/- The owner's only object goes. -/
theorem backed_release
    (hBacked : Backed table owns)
    {h : OssHandle}
    (hHolds : owns o = some h.fd) :
    Backed (h.release table) (Function.update owns o none) := by
  apply hBacked.drop hHolds
  intro p
  split <;> simp

theorem Sound.listener_backed
    {a : ListenerAct}
    {l : TcpListener}
    (hSound : Sound s)
    (hStep : s.listener.Step s.down a l)
    (hAllowed : a.Allowed s) :
    Backed (a.after s.started s.table)
      (held { s with
        table := a.after s.started s.table
        listener := l
        agents := a.handOver s.started s.agents }) := by
  have hBacked := hSound.backed
  have hTidy := hSound.tidy
  cases hStep with
  | enter hPlace hRetry hUp =>
      simp only [TcpListener.Tidy, hPlace] at hTidy
      exact backed_kept hBacked
        (by simp [OssHandle.held, hTidy])
        (by simp [TcpListener.pending, hPlace])
  | finish hPlace hEnd =>
      exact backed_kept hBacked rfl
        (by simp [TcpListener.pending, hPlace])
  | init sock hPlace =>
      simp only [TcpListener.Tidy, hPlace] at hTidy
      cases sock with
      | none =>
          exact backed_kept hBacked
            (by simp [OssHandle.held, OssHandle.init, hTidy])
            (by simp [TcpListener.pending, OssHandle.init,
              hPlace, hTidy])
      | some fd =>
          have hFree : s.table fd = .free := hAllowed
          have hNew : (s.listener.socket.init (some fd)).2.held =
              some fd := by
            simp [OssHandle.init, OssHandle.held, hTidy]
          apply backed_socket
          · simp [TcpListener.pending, OssHandle.init, hPlace,
              hTidy]
          · rw [hNew]
            exact hBacked.take
              (by simp [held, OssHandle.held, hTidy])
              (by simp [hFree])
  | bind binds listens hPlace =>
      by_cases hBoth : (binds && listens) = true
      · have hSame : s.listener.socket.bindListen binds listens =
            (edbOk, s.listener.socket) := by
          simp_all [OssHandle.bindListen]
        simp only [ListenerAct.after, if_pos hBoth, hSame]
        exact backed_kept hBacked rfl
          (by simp [TcpListener.pending, hPlace])
      · have hClosed : s.listener.socket.bindListen binds listens =
            (edbNetwork, s.listener.socket.close) := by
          cases binds <;> cases listens <;>
            simp_all [OssHandle.bindListen]
        simp only [ListenerAct.after, if_neg hBoth, hClosed]
        exact backed_socket
          (by simp [TcpListener.pending, hPlace])
          (backed_closeIn hBacked rfl)
  | activate rc hPlace =>
      apply backed_kept hBacked
      · rfl
      · by_cases hRc : rc = edbOk <;>
          simp [TcpListener.pending, hPlace, hRc]
  | inner hPlace =>
      apply backed_kept hBacked
      · rfl
      · cases s.down <;> simp [TcpListener.pending, hPlace]
  | accept e e' c c' rc hPlace hInit hCall =>
      simp only [TcpListener.Tidy, hPlace] at hTidy
      simp only [ListenerAct.after]
      rcases OssEndpoint.accept_open hCall with
        ⟨hRc, hOpen⟩ | ⟨rfl, hClosed⟩
      · rw [hInit] at hOpen
        rcases hRc with rfl | rfl
        · apply backed_pending (by rw [hOpen])
          rw [if_pos rfl]
          exact hBacked.take
            (by simp [held, TcpListener.pending, hPlace])
            (by simp [hAllowed rfl])
        · rw [if_neg (by decide), if_pos rfl]
          exact backed_kept hBacked (by rw [hOpen])
            (by simp [TcpListener.pending, hPlace])
      · rw [if_neg (by decide), if_neg (by decide)]
        apply backed_socket
          (by simp [TcpListener.pending, hPlace])
        rw [hClosed]
        exact backed_closeIn hBacked rfl
  | timeout c hPlace hRc =>
      exact backed_kept hBacked rfl
        (by simp [TcpListener.pending, hPlace, hRc])
  | failDown c hPlace hTime hRc hDown =>
      exact backed_kept hBacked rfl
        (by simp [TcpListener.pending, hPlace, hRc])
  | failUp c hPlace hTime hRc hUp =>
      exact backed_kept hBacked rfl
        (by simp [TcpListener.pending, hPlace, hRc])
  | start c id hPlace hRc =>
      have hAbsent := hSound.fresh s.started (Nat.le_refl _)
      have hOwn : s.held .pending = some c := by
        simp [held, TcpListener.pending, hPlace, hRc]
      have hNone : s.held (.agent s.started) = none := by
        simp [held, hAbsent, AgentPlace.held]
      exact backed_started (hBacked.pass hOwn hNone)
  | startFails c rc hPlace hRc hFails =>
      exact backed_kept hBacked rfl
        (by simp [TcpListener.pending, hPlace, hRc])
  | reject c named hPlace =>
      exact backed_kept hBacked rfl
        (by simp [TcpListener.pending, hPlace, OssHandle.ofFd])
  | drop newSock hPlace =>
      exact backed_pending
        (l := { s.listener with place := .inner }) rfl
        (backed_release hBacked
          (by simp [held, TcpListener.pending, hPlace]))
  | wait rc hPlace =>
      apply backed_kept hBacked
      · rfl
      · by_cases hRc : rc = edbOk <;>
          simp [TcpListener.pending, hPlace, hRc]
  | next hPlace =>
      exact backed_socket
        (by simp [TcpListener.pending, hPlace])
        (backed_closeIn hBacked rfl)
  | leave hPlace =>
      exact backed_socket
        (by simp [TcpListener.pending, hPlace])
        (backed_closeIn hBacked rfl)

theorem Sound.agent_backed
    {k : Nat}
    {a : AgentAct}
    {p : AgentPlace}
    (hSound : Sound s)
    (hStep : (s.agents k).Step a p) :
    Backed (a.after s.table)
      (held { s with
        table := a.after s.table
        agents := Function.update s.agents k p }) := by
  have hHeld : held { s with
      table := a.after s.table
      agents := Function.update s.agents k p } =
      Function.update s.held (.agent k) p.held := by
    funext o
    cases o with
    | listener => simp [held]
    | pending => simp [held]
    | agent j =>
        by_cases hEq : j = k
        · simp [held, hEq]
        · simp [held, hEq]
  rw [hHeld]
  generalize hPlace : s.agents k = q at hStep
  have hOwn : s.held (.agent k) = q.held := by
    simp [held, hPlace]
  cases hStep with
  | miss fd => exact hSound.backed.drop hOwn (by simp)
  | name fd named =>
      rw [show (AgentPlace.serving (.ofFd fd named)).held =
        s.held (.agent k) from hOwn.symm,
        Function.update_eq_self]
      exact hSound.backed
  | use h =>
      rw [← hOwn, Function.update_eq_self]
      exact hSound.backed
  | close h => exact backed_release hSound.backed hOwn

/- A step of the listener starts the next agent, if one. -/
theorem Sound.listener_fresh
    {a : ListenerAct}
    (hSound : Sound s)
    (k : Nat)
    (hFrom : s.started + a.starts ≤ k) :
    a.handOver s.started s.agents k = .absent := by
  unfold ListenerAct.starts at hFrom
  unfold ListenerAct.handOver
  split at hFrom
  · rw [Function.update_of_ne (by omega)]
    exact hSound.fresh k (by omega)
  · exact hSound.fresh k hFrom

/- An agent that makes a step was started. -/
theorem Sound.agent_fresh
    {j : Nat}
    {a : AgentAct}
    {p : AgentPlace}
    (hSound : Sound s)
    (hStep : (s.agents j).Step a p)
    (k : Nat)
    (hFrom : s.started ≤ k) :
    Function.update s.agents j p k = .absent := by
  have hAbsent := hSound.fresh k hFrom
  have hNe : k ≠ j := by
    rintro rfl
    rw [hAbsent] at hStep
    cases hStep
  rw [Function.update_of_ne hNe]
  exact hAbsent

/- Every step keeps the owners and their descriptors. -/
theorem Sound.step
    {a : ProcessAct}
    (hSound : Sound s)
    (hStep : Process.Step s a t) :
    Sound t := by
  cases hStep with
  | listener a l hListener hAllowed =>
      exact ⟨hSound.listener_backed hListener hAllowed,
        tidy_step hSound.tidy hListener,
        hSound.listener_fresh⟩
  | agent k a p hAgent =>
      exact ⟨hSound.agent_backed hAgent, hSound.tidy,
        hSound.agent_fresh hAgent⟩
  | restOpens fd hFree =>
      exact ⟨hSound.backed.mark (by simp [hFree]) (by simp),
        hSound.tidy, hSound.fresh⟩
  | restCloses fd hForeign =>
      exact ⟨hSound.backed.mark (by simp [hForeign]) (by simp),
        hSound.tidy, hSound.fresh⟩
  | shutdown =>
      exact ⟨hSound.backed, hSound.tidy, hSound.fresh⟩

theorem sound_init : Sound init := by
  refine ⟨?_, rfl, fun _ _ => rfl⟩
  intro o fd
  cases o <;>
    simp [init, held, OssHandle.held, TcpListener.pending,
      AgentPlace.held]

end Process

------------------------------------------------------------
-- System Calls on Descriptors
------------------------------------------------------------

/-
  The owner that a step acts for and the descriptor that it
  passes to the kernel, to work on it or to close it.
-/
inductive ProcessAct.Passes :
    ProcessAct → FdOwner → Int → Prop
| bind (h : OssHandle) (binds listens : Bool) :
    Passes (.listener (.bind h binds listens)) .listener h.fd
| accept (h : OssHandle) (rc c : Int) :
    Passes (.listener (.accept h rc c)) .listener h.fd
| name (c : Int) (named : Bool) :
    Passes (.listener (.name c named)) .pending c
| close (h : OssHandle) (hInit : h.isInit = true) :
    Passes (.listener (.close h)) .pending h.fd
| destruct (h : OssHandle) (hInit : h.isInit = true) :
    Passes (.listener (.destruct h)) .listener h.fd
| agentName (k : Nat) (fd : Int) (named : Bool) :
    Passes (.agent k (.name fd named)) (.agent k) fd
| agentUse (k : Nat) (fd : Int) :
    Passes (.agent k (.use fd)) (.agent k) fd
| agentClose
    (k : Nat)
    (h : OssHandle)
    (hInit : h.isInit = true) :
    Passes (.agent k (.close h)) (.agent k) h.fd

/-
  A step in which `getsockname` fails for a descriptor, or
  its agent does not run.
-/
def ProcessAct.Loses
    (fd : Int) : ProcessAct → Prop
| .listener (.name c named) => c = fd ∧ named = false
| .agent _ (.name c named) => c = fd ∧ named = false
| .agent _ (.miss c) => c = fd
| _ => False

namespace Process

/- What a step passes to the kernel, its owner holds. -/
theorem Sound.passes
    {s t : Process}
    {a : ProcessAct}
    {o : FdOwner}
    {fd : Int}
    (hSound : Sound s)
    (hStep : Process.Step s a t)
    (hPasses : a.Passes o fd) :
    s.held o = some fd := by
  have hTidy := hSound.tidy
  cases hStep with
  | listener a l hListener hAllowed =>
      cases hListener <;> cases hPasses <;>
        simp_all [TcpListener.Tidy, held, OssHandle.held,
          TcpListener.pending]
  | agent k a p hAgent =>
      generalize hPlace : s.agents k = q at hAgent
      cases hAgent <;> cases hPasses <;>
        simp [held, hPlace, AgentPlace.held]
  | _ => cases hPasses

/- An object without a name has the descriptor, or had it. -/
def Unclosed
    (s : Process)
    (fd : Int) : Prop :=
  s.table fd = .lost ∨
    (∃ newSock : OssHandle, newSock.isInit = false ∧
      newSock.fd = fd ∧ s.listener.place = .drop newSock) ∨
    ∃ (k : Nat) (h : OssHandle), h.isInit = false ∧
      h.fd = fd ∧ s.agents k = .serving h

/- Only an update to a loss loses a descriptor. -/
theorem update_lost
    {ο : Type}
    {table : Int → Custody ο}
    {k fd : Int}
    {c : Custody ο}
    (hNe : c ≠ .lost)
    (hLost : Function.update table k c fd = .lost) :
    table fd = .lost := by
  by_cases hKey : fd = k
  · rw [hKey, Function.update_self] at hLost
    exact absurd hLost hNe
  · rwa [Function.update_of_ne hKey] at hLost

theorem closeIn_lost
    {ο : Type}
    {table : Int → Custody ο}
    {h : OssHandle}
    {fd : Int}
    (hLost : h.closeIn table fd = .lost) :
    table fd = .lost := by
  unfold OssHandle.closeIn at hLost
  split at hLost
  · exact update_lost (by simp) hLost
  · exact hLost

/- An object that goes loses its descriptor without a name. -/
theorem release_lost
    {ο : Type}
    {table : Int → Custody ο}
    {h : OssHandle}
    {fd : Int}
    (hLost : h.release table fd = .lost) :
    table fd = .lost ∨ h.isInit = false ∧ h.fd = fd := by
  unfold OssHandle.release at hLost
  by_cases hInit : h.isInit = true
  · rw [if_pos hInit] at hLost
    exact Or.inl (update_lost (by simp) hLost)
  · by_cases hKey : fd = h.fd
    · exact Or.inr ⟨by simpa using hInit, hKey.symm⟩
    · rw [Function.update_of_ne hKey] at hLost
      exact Or.inl hLost

/- Only the objects of connections lose descriptors. -/
theorem after_lost
    {started : Nat}
    {table : Int → Custody FdOwner}
    {a : ListenerAct}
    {fd : Int}
    (hClose : ∀ newSock, a ≠ .close newSock)
    (hLost : a.after started table fd = .lost) :
    table fd = .lost := by
  cases a with
  | close newSock => exact absurd rfl (hClose newSock)
  | socket sock =>
      cases sock with
      | none => exact hLost
      | some k => exact update_lost (by simp) hLost
  | start c agentEDU =>
      cases agentEDU with
      | none => exact hLost
      | some id => exact update_lost (by simp) hLost
  | bind h binds listens =>
      simp only [ListenerAct.after] at hLost
      split at hLost
      · exact hLost
      · exact closeIn_lost hLost
  | accept h rc c =>
      simp only [ListenerAct.after] at hLost
      split at hLost
      · exact update_lost (by simp) hLost
      · split at hLost
        · exact hLost
        · exact closeIn_lost hLost
  | destruct h => exact closeIn_lost hLost
  | test => exact hLost
  | status rc => exact hLost
  | name c named => exact hLost

/- The listener drops only the object it has named. -/
theorem place_drop
    {down : Bool}
    {a : ListenerAct}
    {l l' : TcpListener}
    {newSock : OssHandle}
    (hStep : l.Step down a l')
    (hPlace : l'.place = .drop newSock) :
    a = .name newSock.fd newSock.isInit := by
  cases hStep <;> grind [OssHandle.ofFd]

/- A descriptor that nobody will close is lost in a step. -/
theorem Unclosed.step
    {a : ProcessAct}
    {s t : Process}
    {fd : Int}
    (hStep : Process.Step s a t)
    (hUnclosed : t.Unclosed fd) :
    s.Unclosed fd ∨ a.Loses fd := by
  cases hStep with
  | listener a l hListener hAllowed =>
      rcases hUnclosed with hLost | ⟨newSock, hInit, rfl, hPlace⟩ |
        ⟨k, h, hInit, hFd, hPlace⟩
      · by_cases hClose : ∃ newSock, a = .close newSock
        · rcases hClose with ⟨newSock, rfl⟩
          rcases release_lost hLost with hOld | ⟨hInit, hFd⟩
          · exact Or.inl (Or.inl hOld)
          · refine Or.inl (Or.inr (Or.inl
              ⟨newSock, hInit, hFd, ?_⟩))
            cases hListener
            assumption
        · exact Or.inl (Or.inl (after_lost
            (fun newSock hEq => hClose ⟨newSock, hEq⟩) hLost))
      · have hName := place_drop hListener hPlace
        rw [hInit] at hName
        rw [hName]
        exact Or.inr ⟨rfl, rfl⟩
      · refine Or.inl (Or.inr (Or.inr ⟨k, h, hInit, hFd, ?_⟩))
        cases a with
        | start c agentEDU =>
            cases agentEDU with
            | none => exact hPlace
            | some id =>
                by_cases hEq : k = s.started
                · simp [ListenerAct.handOver, hEq] at hPlace
                · simpa [ListenerAct.handOver, hEq] using hPlace
        | _ => exact hPlace
  | agent k a p hAgent =>
      generalize hOld : s.agents k = q at hAgent
      rcases hUnclosed with hLost | hDrop |
        ⟨j, h, hInit, hFd, hPlace⟩
      · cases hAgent with
        | miss c =>
            by_cases hEq : fd = c
            · exact Or.inr hEq.symm
            · simp only [AgentAct.after,
                Function.update_of_ne hEq] at hLost
              exact Or.inl (Or.inl hLost)
        | name => exact Or.inl (Or.inl hLost)
        | use => exact Or.inl (Or.inl hLost)
        | close h =>
            rcases release_lost hLost with hLost | ⟨hInit, hFd⟩
            · exact Or.inl (Or.inl hLost)
            · exact Or.inl (Or.inr (Or.inr
                ⟨k, h, hInit, hFd, hOld⟩))
      · exact Or.inl (Or.inr (Or.inl hDrop))
      · by_cases hEq : j = k
        · subst hEq
          simp only [Function.update_self] at hPlace
          cases hAgent with
          | miss c => cases hPlace
          | name c named =>
              simp only [AgentPlace.serving.injEq] at hPlace
              subst hPlace
              exact Or.inr ⟨hFd, hInit⟩
          | use h' =>
              simp only [AgentPlace.serving.injEq] at hPlace
              subst hPlace
              exact Or.inl (Or.inr (Or.inr
                ⟨j, h', hInit, hFd, hOld⟩))
          | close h' => cases hPlace
        · simp only [Function.update_of_ne hEq] at hPlace
          exact Or.inl (Or.inr (Or.inr
            ⟨j, h, hInit, hFd, hPlace⟩))
  | restOpens k hFree =>
      rcases hUnclosed with hLost | hRest
      · exact Or.inl (Or.inl (update_lost (by simp) hLost))
      · exact Or.inl (Or.inr hRest)
  | restCloses k hForeign =>
      rcases hUnclosed with hLost | hRest
      · exact Or.inl (Or.inl (update_lost (by simp) hLost))
      · exact Or.inl (Or.inr hRest)
  | shutdown => exact Or.inl hUnclosed

theorem Unclosed.run
    {as : List ProcessAct}
    {s t : Process}
    {fd : Int}
    (hRun : Steps Process.Step s as t)
    (hUnclosed : t.Unclosed fd) :
    s.Unclosed fd ∨ ∃ a ∈ as, a.Loses fd := by
  induction hRun with
  | nil s => exact Or.inl hUnclosed
  | cons hStep _ ih =>
      rcases ih hUnclosed with hNext | ⟨a, hIn, hLoses⟩
      · rcases Unclosed.step hStep hNext with hOld | hLoses
        · exact Or.inl hOld
        · exact Or.inr ⟨_, List.mem_cons_self, hLoses⟩
      · exact Or.inr ⟨a, List.mem_cons_of_mem _ hIn, hLoses⟩

end Process

/-
  In every run each open socket object, each connection that
  is not settled and each agent has a descriptor of its own,
  and no other thread has it; the kernel gets no descriptor
  from a thread that does not hold it; and a descriptor that
  nobody will close is one that `getsockname` failed for, or
  the one of an agent that no thread has run.
-/
theorem process_descriptors
    {as : List ProcessAct}
    {s : Process}
    (hRun : Steps Process.Step Process.init as s) :
    (∀ o fd, s.held o = some fd ↔ s.table fd = .held o) ∧
      (∀ a t o fd, Process.Step s a t → a.Passes o fd →
        s.table fd = .held o) ∧
      ∀ fd, s.table fd = .lost → ∃ a ∈ as, a.Loses fd := by
  have hSound : s.Sound :=
    hRun.invariant (fun _ _ _ hOld hStep => hOld.step hStep)
      Process.sound_init
  refine ⟨hSound.backed, ?_, ?_⟩
  · intro a t o fd hStep hPasses
    exact (hSound.backed o fd).mp (hSound.passes hStep hPasses)
  · intro fd hLost
    rcases Process.Unclosed.run hRun (Or.inl hLost) with
      hStart | hLoses
    · simp [Process.Unclosed, Process.init] at hStart
    · exact hLoses

/-
  A listener that opens a socket and accepts a connection.
  Its agent serves it when the database goes down and the
  listener returns.
-/
def acceptsOne : List ProcessAct :=
  [.listener .test, .listener (.socket (some 3)),
    .listener (.bind ⟨3, true⟩ true true),
    .listener (.status edbOk), .listener .test,
    .listener (.accept ⟨3, true⟩ edbOk 4),
    .listener (.start 4 (some 7)), .agent 0 (.name 4 true),
    .shutdown, .listener .test, .listener (.status edbOk),
    .listener (.destruct ⟨3, true⟩), .listener .test]

theorem acceptsOne_run :
    ∃ s : Process, Steps Process.Step Process.init acceptsOne s ∧
      s.agents 0 = .serving ⟨4, true⟩ ∧ s.down = true ∧
      s.listener.place = .returned ∧
      s.listener.rc = edbOk := by
  let e : OssEndpoint :=
    { timeout := 0, selects := [.ready true], sends := [],
      recvs := [], input := [], output := [],
      init := true, accepts := [.accepted 4] }
  refine ⟨_,
    .cons (.listener _ _ (.enter rfl (by decide) rfl) trivial)
      (.cons (.listener _ _ (.init (some 3) rfl) rfl)
        (.cons (.listener _ _ (.bind true true rfl) trivial)
          (.cons (.listener _ _ (.activate edbOk rfl) trivial)
            (.cons (.listener _ _ (.inner rfl) trivial)
              (.cons (.listener _ _
                (.accept e _ 0 4 edbOk rfl rfl rfl)
                (fun _ => rfl))
                (.cons (.listener _ _ (.start 4 7 rfl rfl)
                  trivial)
                  (.cons (.agent 0 _ _ (.name 4 true))
                    (.cons .shutdown
                      (.cons (.listener _ _ (.inner rfl)
                        trivial)
                        (.cons (.listener _ _ (.wait edbOk rfl)
                          trivial)
                          (.cons (.listener _ _ (.next rfl)
                            trivial)
                            (.cons (.listener _ _
                              (.finish rfl (Or.inr rfl))
                              trivial)
                              (.nil _))))))))))))),
    rfl, rfl, rfl, rfl⟩

/-
  The agent has the descriptor of its connection; that of the
  listening socket is closed and was never lost.
-/
theorem process_descriptors_acceptsOne :
    ∃ s : Process, s.held (.agent 0) = some 4 ∧
      s.table 4 = .held (.agent 0) ∧
      s.table 3 ≠ .held .listener ∧ s.table 3 ≠ .lost := by
  rcases acceptsOne_run with ⟨s, hRun, hPlace, _, hEnd, _⟩
  rcases process_descriptors hRun with ⟨hOwn, _, hLost⟩
  have hHeld : s.held (.agent 0) = some 4 := by
    simp [Process.held, hPlace, AgentPlace.held]
  have hClosed : s.held .listener = none := by
    have hSound : s.Sound :=
      hRun.invariant (fun _ _ _ hOld hStep => hOld.step hStep)
        Process.sound_init
    have hTidy := hSound.tidy
    simp only [TcpListener.Tidy, hEnd] at hTidy
    simp [Process.held, OssHandle.held, hTidy]
  refine ⟨s, hHeld, (hOwn _ 4).mp hHeld, ?_, ?_⟩
  · intro hTable
    rw [(hOwn .listener 3).mpr hTable] at hClosed
    cases hClosed
  · intro hTable
    rcases hLost 3 hTable with ⟨a, hIn, hLoses⟩
    simp only [acceptsOne, List.mem_cons, List.not_mem_nil,
      or_false] at hIn
    rcases hIn with rfl | rfl | rfl | rfl | rfl | rfl | rfl |
      rfl | rfl | rfl | rfl | rfl | rfl
    all_goals simp [ProcessAct.Loses] at hLoses

------------------------------------------------------------
-- Connections
------------------------------------------------------------

/- The connection that a step accepts. -/
def ProcessAct.accepts? : ProcessAct → Option Int
| .listener (.accept _ rc c) =>
    if rc = edbOk then some c else none
| _ => none

/- The connection that a step gives to an agent or refuses. -/
def ProcessAct.settles? : ProcessAct → Option Int
| .listener (.start c (some _)) => some c
| .listener (.close newSock) => some newSock.fd
| _ => none

/- The connections that a run accepts, in order. -/
def accepted (as : List ProcessAct) : List Int :=
  as.flatMap (·.accepts?.toList)

/- The connections that a run settles, in order. -/
def settled (as : List ProcessAct) : List Int :=
  as.flatMap (·.settles?.toList)

namespace Process

/- The listener has one connection to settle at a time. -/
theorem pending_listener
    {down : Bool}
    {a : ListenerAct}
    {l l' : TcpListener}
    (hStep : l.Step down a l') :
    l.pending.toList ++
        (ProcessAct.listener a).accepts?.toList =
      (ProcessAct.listener a).settles?.toList ++
        l'.pending.toList := by
  cases hStep with
  | accept e e' c c' rc hPlace hInit hCall =>
      by_cases hRc : rc = edbOk <;>
        simp [TcpListener.pending, hPlace, ProcessAct.accepts?,
          ProcessAct.settles?, hRc]
  | timeout c hPlace hRc =>
      simp [TcpListener.pending, hPlace, ProcessAct.accepts?,
        ProcessAct.settles?, hRc]
  | failDown c hPlace hTime hRc hDown =>
      simp [TcpListener.pending, hPlace, ProcessAct.accepts?,
        ProcessAct.settles?, hRc]
  | failUp c hPlace hTime hRc hUp =>
      simp [TcpListener.pending, hPlace, ProcessAct.accepts?,
        ProcessAct.settles?, hRc]
  | start c id hPlace hRc =>
      simp [TcpListener.pending, hPlace, ProcessAct.accepts?,
        ProcessAct.settles?, hRc]
  | startFails c rc hPlace hRc hFails =>
      simp [TcpListener.pending, hPlace, ProcessAct.accepts?,
        ProcessAct.settles?, hRc]
  | reject c named hPlace =>
      simp [TcpListener.pending, hPlace, ProcessAct.accepts?,
        ProcessAct.settles?, OssHandle.ofFd]
  | drop newSock hPlace =>
      simp [TcpListener.pending, hPlace, ProcessAct.accepts?,
        ProcessAct.settles?]
  | enter hPlace hRetry hUp =>
      simp [TcpListener.pending, hPlace, ProcessAct.accepts?,
        ProcessAct.settles?]
  | finish hPlace hEnd =>
      simp [TcpListener.pending, hPlace, ProcessAct.accepts?,
        ProcessAct.settles?]
  | next hPlace =>
      simp [TcpListener.pending, hPlace, ProcessAct.accepts?,
        ProcessAct.settles?]
  | leave hPlace =>
      simp [TcpListener.pending, hPlace, ProcessAct.accepts?,
        ProcessAct.settles?]
  | _ =>
      -- a code decides on the place, without a connection
      rename_i hPlace
      simp only [TcpListener.pending, hPlace,
        ProcessAct.accepts?, ProcessAct.settles?]
      grind

theorem pending_step
    {a : ProcessAct}
    {s t : Process}
    (hStep : Process.Step s a t) :
    s.listener.pending.toList ++ a.accepts?.toList =
      a.settles?.toList ++ t.listener.pending.toList := by
  cases hStep with
  | listener a l hListener hAllowed =>
      exact pending_listener hListener
  | _ =>
      simp [ProcessAct.accepts?, ProcessAct.settles?]

theorem pending_run
    {as : List ProcessAct}
    {s t : Process}
    (hRun : Steps Process.Step s as t) :
    s.listener.pending.toList ++ accepted as =
      settled as ++ t.listener.pending.toList := by
  induction hRun with
  | nil s => simp [accepted, settled]
  | @cons s u t a as hStep _ ih =>
      calc s.listener.pending.toList ++ accepted (a :: as)
          = (s.listener.pending.toList ++
              a.accepts?.toList) ++ accepted as := by
            simp [accepted]
        _ = a.settles?.toList ++
              (u.listener.pending.toList ++ accepted as) := by
            rw [pending_step hStep, List.append_assoc]
        _ = settled (a :: as) ++
              t.listener.pending.toList := by
            rw [ih]
            simp [settled]

end Process

/-
  In every run the accepted connections are, in the order of
  the calls, each given to one agent or refused, but for one
  that the listener has not settled; when it has returned
  there is none.
-/
theorem connections_settled
    {as : List ProcessAct}
    {s : Process}
    (hRun : Steps Process.Step Process.init as s) :
    accepted as = settled as ++ s.listener.pending.toList ∧
      (s.listener.place = .returned →
        accepted as = settled as) := by
  have hAll : accepted as =
      settled as ++ s.listener.pending.toList :=
    Process.pending_run hRun
  refine ⟨hAll, ?_⟩
  intro hPlace
  simpa [TcpListener.pending, hPlace] using hAll

theorem connections_settled_acceptsOne :
    accepted acceptsOne = [4] ∧
      accepted acceptsOne = settled acceptsOne := by
  rcases acceptsOne_run with ⟨s, hRun, _, _, hEnd, _⟩
  exact ⟨rfl, (connections_settled hRun).2 hEnd⟩

------------------------------------------------------------
-- Sockets and the Return
------------------------------------------------------------

/- Does a step open a listening socket? -/
def ProcessAct.opens : ProcessAct → Bool
| .listener (.socket (some _)) => true
| _ => false

/- Does a step lose the listening socket in `accept`? -/
def ProcessAct.fails : ProcessAct → Bool
| .listener (.accept _ rc _) =>
    decide (rc ≠ edbOk ∧ rc ≠ edbTimeout)
| _ => false

namespace TcpListener

/-
  How the lost sockets `m` go with the tries.  The listener
  leaves with a code, or when its tries are over.
-/
def Failed
    (m : Nat)
    (l : TcpListener) : Prop :=
  match l.place with
  | .outer => l.rc = edbOk ∧ m = l.retry
  | .accepted _ =>
      if l.rc = edbOk ∨ l.rc = edbTimeout then m + 1 = l.retry
      else m = l.retry
  | .wait => m = l.retry
  | .next => l.rc = edbOk ∧ m = l.retry
  | .leave => l.rc ≠ edbOk
  | .returned => l.rc = edbOk →
      m = l.retry ∧ tcpListenerRetry < l.retry
  | _ => m + 1 = l.retry

/- The opened sockets `n` and the lost ones of the tries. -/
structure Tries
    (down : Bool)
    (n m : Nat)
    (l : TcpListener) : Prop where
  most : l.retry ≤ tcpListenerRetry + 1
  opened : n + (if l.place = .init then 1 else 0) ≤ l.retry
  failed : down = false → l.Failed m

/- The number of opened sockets stays below the tries. -/
theorem opened_step
    {down : Bool}
    {n : Nat}
    {a : ListenerAct}
    {l l' : TcpListener}
    (hOpened : n + (if l.place = .init then 1 else 0) ≤ l.retry)
    (hStep : l.Step down a l') :
    n + (ProcessAct.listener a).opens.toNat +
      (if l'.place = .init then 1 else 0) ≤ l'.retry := by
  cases hStep with
  | enter hPlace hRetry hUp =>
      simp only [hPlace, reduceCtorEq, if_false] at hOpened
      simpa [ProcessAct.opens] using hOpened
  | init sock hPlace =>
      simp only [hPlace, if_true] at hOpened
      have hOne : ∀ b : Bool, b.toNat ≤ 1 := by decide
      have hOpens :=
        hOne (ProcessAct.listener (.socket sock)).opens
      simp only
      split <;> simp only [reduceCtorEq, if_false] <;> omega
  | _ =>
      simp_all only [ProcessAct.opens, Bool.toNat_false,
        reduceCtorEq, if_false] <;> grind

/- The lost sockets go on with the tries. -/
theorem failed_step
    {down : Bool}
    {m : Nat}
    {a : ListenerAct}
    {l l' : TcpListener}
    (hUp : down = false)
    (hFailed : l.Failed m)
    (hStep : l.Step down a l') :
    l'.Failed (m + (ProcessAct.listener a).fails.toNat) := by
  subst hUp
  cases hStep with
  | finish hPlace hEnd =>
      simp only [Failed, hPlace] at hFailed
      rcases hEnd with hOver | hDown
      · intro _
        exact ⟨hFailed.2, hOver⟩
      · cases hDown
  | init sock hPlace =>
      simp only [Failed, hPlace] at hFailed
      by_cases hRc : (l.socket.init sock).1 = edbOk
      · simpa [Failed, hRc, ProcessAct.fails] using hFailed
      · simp [Failed, hRc]
  | bind binds listens hPlace =>
      simp only [Failed, hPlace] at hFailed
      by_cases hRc : (l.socket.bindListen binds listens).1 = edbOk
      · simpa [Failed, hRc, ProcessAct.fails] using hFailed
      · simp [Failed, hRc]
  | activate rc hPlace =>
      simp only [Failed, hPlace] at hFailed
      by_cases hRc : rc = edbOk
      · simpa [Failed, hRc, ProcessAct.fails] using hFailed
      · simp [Failed, hRc]
  | wait rc hPlace =>
      simp only [Failed, hPlace] at hFailed
      by_cases hRc : rc = edbOk
      · simpa [Failed, hRc, ProcessAct.fails] using hFailed
      · simp [Failed, hRc]
  | accept e e' c c' rc hPlace hInit hCall =>
      simp only [Failed, hPlace] at hFailed
      by_cases hRc : rc = edbOk ∨ rc = edbTimeout
      · simp only [Failed, if_pos hRc]
        have hNot : ¬ (rc ≠ edbOk ∧ rc ≠ edbTimeout) := by
          rcases hRc with rfl | rfl <;> simp
        simpa [ProcessAct.fails, hNot] using hFailed
      · simp only [Failed, if_neg hRc]
        have hBoth : rc ≠ edbOk ∧ rc ≠ edbTimeout :=
          not_or.mp hRc
        simpa [ProcessAct.fails, hBoth] using hFailed
  | _ =>
      simp_all [Failed, ProcessAct.fails]

theorem Tries.step
    {down : Bool}
    {n m : Nat}
    {a : ListenerAct}
    {l l' : TcpListener}
    (hTries : l.Tries down n m)
    (hStep : l.Step down a l') :
    l'.Tries down
      (n + (ProcessAct.listener a).opens.toNat)
      (m + (ProcessAct.listener a).fails.toNat) := by
  refine ⟨?_, opened_step hTries.opened hStep,
    fun hUp => failed_step hUp (hTries.failed hUp) hStep⟩
  have hMost := hTries.most
  cases hStep with
  | enter hPlace hRetry hUp => exact Nat.succ_le_succ hRetry
  | _ => exact hMost

end TcpListener

/- The listening sockets that a run opens. -/
def sockets (as : List ProcessAct) : Nat :=
  as.countP (·.opens)

/- The listening sockets that a run loses in `accept`. -/
def failures (as : List ProcessAct) : Nat :=
  as.countP (·.fails)

namespace Process

theorem tries_step
    {n m : Nat}
    {a : ProcessAct}
    {s t : Process}
    (hTries : s.listener.Tries s.down n m)
    (hStep : Process.Step s a t) :
    t.listener.Tries t.down (n + a.opens.toNat)
      (m + a.fails.toNat) := by
  cases hStep with
  | listener a l hListener hAllowed =>
      exact hTries.step hListener
  | agent k a p hAgent => exact hTries
  | restOpens fd hFree => exact hTries
  | restCloses fd hForeign => exact hTries
  | shutdown =>
      exact ⟨hTries.most, hTries.opened, fun hUp => by cases hUp⟩

theorem tries_run
    {as : List ProcessAct}
    {n m : Nat}
    {s t : Process}
    (hRun : Steps Process.Step s as t)
    (hTries : s.listener.Tries s.down n m) :
    t.listener.Tries t.down (n + sockets as)
      (m + failures as) := by
  induction hRun generalizing n m with
  | nil s => exact hTries
  | @cons s u t a as hStep _ ih =>
      have hEnd := ih (tries_step hTries hStep)
      have hSockets : sockets (a :: as) =
          a.opens.toNat + sockets as := by
        cases hOpens : a.opens <;>
          simp [sockets, hOpens, Nat.add_comm]
      have hFailures : failures (a :: as) =
          a.fails.toNat + failures as := by
        cases hFails : a.fails <;>
          simp [failures, hFails, Nat.add_comm]
      rw [hSockets, hFailures, ← Nat.add_assoc,
        ← Nat.add_assoc]
      exact hEnd

end Process

namespace TcpListener

/- How many steps are left when the database is down. -/
def rest (l : TcpListener) : Nat :=
  match l.place with
  | .accept => 8
  | .init => 7
  | .accepted _ => 7
  | .bind => 6
  | .reject _ => 6
  | .activate => 5
  | .drop _ => 5
  | .inner => 4
  | .wait => 3
  | .next => 2
  | .outer => 1
  | .leave => 1
  | .returned => 0

theorem rest_step
    {a : ListenerAct}
    {l l' : TcpListener}
    (hStep : l.Step true a l') :
    l'.rest < l.rest := by
  cases hStep with
  | enter hPlace hRetry hUp => cases hUp
  | failUp c hPlace hTime hRc hUp => cases hUp
  | init sock hPlace =>
      by_cases hRc : (l.socket.init sock).1 = edbOk <;>
        simp [rest, hPlace, hRc]
  | bind binds listens hPlace =>
      by_cases hRc : (l.socket.bindListen binds listens).1 = edbOk <;>
        simp [rest, hPlace, hRc]
  | activate rc hPlace =>
      by_cases hRc : rc = edbOk <;> simp [rest, hPlace, hRc]
  | wait rc hPlace =>
      by_cases hRc : rc = edbOk <;> simp [rest, hPlace, hRc]
  | _ => simp_all [rest]

/-
  The listener is never stuck: whatever the answers so far,
  there is one for its next call.
-/
theorem moves
    (down : Bool)
    {l : TcpListener}
    (hPlace : l.place ≠ .returned) :
    ∃ a l', l.Step down a l' ∧
      (∀ fd, a ≠ .socket (some fd)) ∧
      ∀ h c, a ≠ .accept h edbOk c := by
  cases hAt : l.place with
  | outer =>
      by_cases hEnd : tcpListenerRetry < l.retry ∨ down = true
      · exact ⟨_, _, .finish hAt hEnd, by simp⟩
      · rw [not_or, not_lt] at hEnd
        exact ⟨_, _, .enter hAt hEnd.1 (by simpa using hEnd.2),
          by simp⟩
  | init => exact ⟨_, _, .init none hAt, by simp⟩
  | bind => exact ⟨_, _, .bind true true hAt, by simp⟩
  | activate => exact ⟨_, _, .activate edbOk hAt, by simp⟩
  | inner => exact ⟨_, _, .inner hAt, by simp⟩
  | accept =>
      -- the time passes
      let e : OssEndpoint :=
        { timeout := 0, selects := [.timeout], sends := [],
          recvs := [], input := [], output := [],
          init := l.socket.isInit, accepts := [] }
      have hCall : ∃ c' e', e.accept 0 =
          (some edbTimeout, c', e') := ⟨_, _, rfl⟩
      rcases hCall with ⟨c', e', hCall⟩
      exact ⟨_, _, .accept e e' 0 c' edbTimeout hAt rfl hCall,
        by simp⟩
  | accepted c =>
      by_cases hTime : l.rc = edbTimeout
      · exact ⟨_, _, .timeout c hAt hTime, by simp⟩
      · by_cases hRc : l.rc = edbOk
        · exact ⟨_, _, .startFails c edbQuiesced hAt hRc
            (by decide), by simp⟩
        · cases hDown : down with
          | true =>
              exact ⟨_, _, .failDown c hAt hTime hRc rfl,
                by simp⟩
          | false =>
              exact ⟨_, _, .failUp c hAt hTime hRc rfl,
                by simp⟩
  | reject c => exact ⟨_, _, .reject c true hAt, by simp⟩
  | drop newSock => exact ⟨_, _, .drop newSock hAt, by simp⟩
  | wait => exact ⟨_, _, .wait edbOk hAt, by simp⟩
  | next => exact ⟨_, _, .next hAt, by simp⟩
  | leave => exact ⟨_, _, .leave hAt, by simp⟩
  | returned => exact absurd hAt hPlace

end TcpListener

/- Is it a step of the listener? -/
def ProcessAct.own : ProcessAct → Bool
| .listener _ => true
| _ => false

namespace Process

theorem down_step
    {a : ProcessAct}
    {s t : Process}
    (hDown : s.down = true)
    (hStep : Process.Step s a t) :
    t.down = true ∧
      t.listener.rest + a.own.toNat ≤ s.listener.rest := by
  cases hStep with
  | listener a l hListener hAllowed =>
      rw [hDown] at hListener
      exact ⟨hDown, TcpListener.rest_step hListener⟩
  | shutdown => exact ⟨rfl, Nat.le_refl _⟩
  | _ => exact ⟨hDown, Nat.le_refl _⟩

theorem down_run
    {as : List ProcessAct}
    {s t : Process}
    (hRun : Steps Process.Step s as t)
    (hDown : s.down = true) :
    t.listener.rest + as.countP (·.own) ≤ s.listener.rest := by
  induction hRun with
  | nil s => simp
  | @cons s u t a as hStep _ ih =>
      rcases down_step hDown hStep with ⟨hNext, hOne⟩
      have hRest := ih hNext
      cases hOwn : a.own <;>
        simp [hOwn] at hOne ⊢ <;> omega

end Process

/-
  The listener opens at most six sockets.  When it returns
  without an error, the database is down or six sockets have
  failed.  It always has a next step until it returns, and
  once the database is down it takes eight of them at most.
-/
theorem listener_returns
    {as : List ProcessAct}
    {s : Process}
    (hRun : Steps Process.Step Process.init as s) :
    sockets as ≤ tcpListenerRetry + 1 ∧
      (s.listener.place = .returned → s.listener.rc = edbOk →
        s.down = true ∨ failures as = tcpListenerRetry + 1) ∧
      (s.listener.place ≠ .returned →
        ∃ a t, Process.Step s (.listener a) t) ∧
      ∀ bs t, s.down = true → Steps Process.Step s bs t →
        bs.countP (·.own) ≤ 8 := by
  have hTries : s.listener.Tries s.down (0 + sockets as)
      (0 + failures as) :=
    Process.tries_run hRun
      ⟨by simp [Process.init], by simp [Process.init],
        fun _ => ⟨rfl, rfl⟩⟩
  rw [Nat.zero_add, Nat.zero_add] at hTries
  refine ⟨?_, ?_, ?_, ?_⟩
  · have hOpened := hTries.opened
    have hMost := hTries.most
    omega
  · intro hPlace hRc
    by_cases hDown : s.down = true
    · exact Or.inl hDown
    · have hFailed := hTries.failed (by simpa using hDown)
      simp only [TcpListener.Failed, hPlace] at hFailed
      have hMost := hTries.most
      have hOver := hFailed hRc
      right
      omega
  · intro hPlace
    rcases TcpListener.moves s.down hPlace with
      ⟨a, l', hStep, hSocket, hAccept⟩
    have hAllowed : a.Allowed s := by
      unfold ListenerAct.Allowed
      split
      · exact absurd rfl (hSocket _)
      · rintro rfl
        exact absurd rfl (hAccept _ _)
      · trivial
    exact ⟨a, _, .listener a l' hStep hAllowed⟩
  · intro bs t hDown hAfter
    have hSteps := Process.down_run hAfter hDown
    have hMost : s.listener.rest ≤ 8 := by
      unfold TcpListener.rest
      split <;> decide
    omega

/-
  The listener has returned with the database down, and makes
  few more steps.
-/
theorem listener_returns_acceptsOne :
    ∃ s : Process, s.listener.place = .returned ∧
      sockets acceptsOne ≤ tcpListenerRetry + 1 ∧
      (s.down = true ∨
        failures acceptsOne = tcpListenerRetry + 1) ∧
      ∀ bs t, Steps Process.Step s bs t →
        bs.countP (·.own) ≤ 8 := by
  rcases acceptsOne_run with ⟨s, hRun, _, hDown, hEnd, hRc⟩
  rcases listener_returns hRun with
    ⟨hSockets, hReturns, _, hFew⟩
  exact ⟨s, hEnd, hSockets, hReturns hEnd hRc,
    fun bs t => hFew bs t hDown⟩

end EmeraldDb
