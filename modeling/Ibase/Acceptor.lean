import Ibase.Lib.Run
import Ibase.Server

/-!
# Accepting connections

The acceptor is opened in the constructor of the server and closed in `stop_impl`,
and `start_impl` does not open it again.  `Accepting` is a server whose `start` and
`stop` are called one after another, with the `async_accept` that asio keeps for it.
A server that was started accepts exactly as long as no call of `stop` came after a
call of `start`.
-/

namespace Ibase

/-- The `async_accept` calls that are outstanding, and the handlers of those that are
done, each with its error. -/
structure Accepts where
  outstanding : Nat
  completed : List Bool
  deriving DecidableEq

/-- On a closed acceptor `async_accept` fails, and `close` fails the outstanding. -/
def Accepts.react (a : Accepts) : Server.Effect → Accepts
  | .asyncAccept isOpen =>
    if isOpen then { a with outstanding := a.outstanding + 1 }
    else { a with completed := a.completed ++ [true] }
  | .closeAcceptor => ⟨0, a.completed ++ List.replicate a.outstanding true⟩
  | .post _ | .session _ _ | .invoked .. => a

instance : Platform Server.Effect Accepts where
  perform effect a := a.react effect

/-- A call of the user. -/
inductive SwitchCall where
  | start
  | stop
  deriving DecidableEq

/-- A server between handlers.  `pending` is the call whose function is posted, and
`returned` what the last `start` returned, if no `stop` followed it. -/
structure Accepting where
  server : Server.Ctx Accepts
  pending : Option SwitchCall
  calls : List SwitchCall
  returned : Option Bool

inductive AcceptEvent where
  | call (kind : SwitchCall)
  /-- The io thread runs the posted function, and the call returns. -/
  | runTask
  /-- An outstanding `async_accept` completes. -/
  | accepted (ec : Bool)
  /-- The io thread runs a handler of `async_accept`. -/
  | runHandler (handler : Nat)
  | tick
  | advance (time : TimePoint)
  deriving DecidableEq

namespace Accepting

open Server

def new (serial : Nat) : Accepting :=
  ⟨⟨Server.new serial, fun _ => none, ⟨0, []⟩, 0, []⟩, none, [], none⟩

/-- One event; `none` if it cannot happen. -/
def step (w : Accepting) : AcceptEvent → Option Accepting
  | .call kind =>
    match w.pending, kind with
    | some _, _ => none
    | none, .start =>
      some { w with pending := some .start, calls := w.calls ++ [.start], returned := none }
    | none, .stop =>
      some (if w.server.started then
        { w with
          server := { w.server with started := false }
          pending := some .stop
          calls := w.calls ++ [.stop]
          returned := none }
      else { w with calls := w.calls ++ [.stop], returned := none })
  | .runTask =>
    match w.pending with
    | none => none
    | some .start =>
      some { w with
        server := w.server.startImpl.2
        pending := none
        returned := some w.server.startImpl.1 }
    | some .stop => some { w with server := w.server.stopImpl, pending := none }
  | .accepted ec =>
    if w.server.env.outstanding = 0 then none
    else
      some { w with server := { w.server with
        env := ⟨w.server.env.outstanding - 1, w.server.env.completed ++ [ec]⟩ } }
  | .runHandler handler =>
    w.server.env.completed[handler]?.map (fun ec =>
      { w with server := { w.server with
          env := { w.server.env with
            completed := w.server.env.completed.eraseIdx handler } }.onAccepted ec })
  | .tick => some { w with server := w.server.onPriodicallyTimer }
  | .advance time => some { w with server := { w.server with now := w.server.now.later time } }

/-- The acceptor is open and one `async_accept` is outstanding, or its handler is
queued. -/
def Listening (w : Accepting) : Prop :=
  w.server.acceptorOpen = true ∧
    w.server.env.outstanding + w.server.env.completed.length = 1

/-- What the calls so far, the acceptor and its `async_accept` have to do with each
other. -/
structure Consistent (w : Accepting) : Prop where
  one : w.server.acceptorOpen = true → w.pending ≠ some .stop →
    w.server.env.outstanding + w.server.env.completed.length = if w.server.started then 1 else 0
  returned : w.returned ≠ none → w.server.started = true ∧ w.pending = none
  start_mem : w.server.started = true ∨ w.pending = some .start → .start ∈ w.calls
  running : .start ∈ w.calls → w.server.acceptorOpen = true → w.pending ≠ some .stop →
    w.server.started = true ∨ w.pending = some .start
  closed_iff : (w.server.acceptorOpen = false ∨ w.pending = some .stop) ↔
    List.Sublist [.start, .stop] w.calls

theorem sublist_concat_stop {calls : List SwitchCall} :
    List.Sublist [.start, .stop] (calls ++ [.stop]) ↔ .start ∈ calls := by
  rw [← List.reverse_sublist, List.reverse_append]
  show List.Sublist [.stop, .start] (.stop :: calls.reverse) ↔ _
  rw [List.cons_sublist_cons, List.singleton_sublist, List.mem_reverse]

theorem sublist_concat_start {calls : List SwitchCall} :
    List.Sublist [.start, .stop] (calls ++ [.start]) ↔ List.Sublist [.start, .stop] calls := by
  rw [← List.reverse_sublist, List.reverse_append]
  show List.Sublist [.stop, .start] (.start :: calls.reverse) ↔ _
  rw [List.sublist_cons_iff]
  constructor
  · rintro (h | ⟨r, h, -⟩)
    · rw [← List.reverse_sublist]
      exact h
    · exact absurd h (by simp)
  · intro h
    exact .inl (List.reverse_sublist.mpr h)

theorem mem_of_sublist {calls : List SwitchCall} (h : List.Sublist [.start, .stop] calls) :
    .start ∈ calls :=
  h.subset List.mem_cons_self

theorem consistent_new (serial : Nat) : (new serial).Consistent := by
  refine ⟨fun _ _ => rfl, fun h => absurd rfl h, ?_, ?_, ?_⟩
  · rintro (h | h)
    · exact absurd h (by simp [new, Server.new])
    · exact absurd h (by simp [new])
  · intro h
    exact absurd h List.not_mem_nil
  · constructor
    · rintro (h | h)
      · exact absurd h (by simp [new, Server.new])
      · exact absurd h (by simp [new])
    · intro h
      exact absurd (mem_of_sublist h) List.not_mem_nil

/-! ### The functions of the server -/

/-- A new session leaves the acceptor alone. -/
theorem addNewSession_frame (s : Server.Ctx Accepts) :
    s.addNewSession.acceptorOpen = s.acceptorOpen ∧ s.addNewSession.started = s.started ∧
      s.addNewSession.env = s.env := by
  rw [Server.Ctx.addNewSession]
  simp only [Server.Ctx.onSession, Function.update_self]
  exact ⟨rfl, rfl, rfl⟩

/-- **The handler of `async_accept` arms the next one** on an open acceptor. -/
theorem onAccepted_open (s : Server.Ctx Accepts) (ec : Bool) (h : s.acceptorOpen = true) :
    (s.onAccepted ec).acceptorOpen = true ∧ (s.onAccepted ec).started = s.started ∧
      (s.onAccepted ec).env = { s.env with outstanding := s.env.outstanding + 1 } := by
  rw [Server.Ctx.onAccepted, if_neg (by simp [h])]
  cases ec with
  | true =>
    refine ⟨h, rfl, ?_⟩
    show s.env.react (.asyncAccept s.acceptorOpen) = _
    rw [h]
    rfl
  | false =>
    obtain ⟨h1, h2, h3⟩ := addNewSession_frame s
    refine ⟨h1.trans h, h2, ?_⟩
    show s.addNewSession.env.react (.asyncAccept s.addNewSession.acceptorOpen) = _
    rw [h1, h3, h]
    rfl

theorem onAccepted_closed (s : Server.Ctx Accepts) (ec : Bool) (h : s.acceptorOpen = false) :
    s.onAccepted ec = s := by
  rw [Server.Ctx.onAccepted, if_pos h]

theorem startImpl_frame (s : Server.Ctx Accepts) :
    s.startImpl.2.started = true ∧ s.startImpl.2.acceptorOpen = s.acceptorOpen ∧
      s.startImpl.2.env =
        if s.started then s.env else s.env.react (.asyncAccept s.acceptorOpen) := by
  rw [Server.Ctx.startImpl]
  split
  · rename_i h
    exact ⟨h, rfl, rfl⟩
  · exact ⟨rfl, rfl, rfl⟩

theorem stopImpl_frame (s : Server.Ctx Accepts) :
    s.stopImpl.started = s.started ∧ s.stopImpl.acceptorOpen = false := by
  rw [Server.Ctx.stopImpl]
  simp only [Server.Ctx.doClose]
  split
  · exact ⟨rfl, rfl⟩
  · rename_i h
    exact ⟨rfl, Bool.eq_false_of_not_eq_true h⟩

/-! ### Every step -/

theorem Consistent.start {w : Accepting} (h : w.Consistent) (hidle : w.pending = none) :
    Consistent
      { w with pending := some .start, calls := w.calls ++ [.start], returned := none } := by
  refine ⟨fun ho _ => h.one ho (by simp [hidle]), fun hr => absurd rfl hr, fun _ => ?_, ?_, ?_⟩
  · exact List.mem_append_right _ (List.mem_singleton_self _)
  · intro _ _ _
    exact .inr rfl
  · refine Iff.trans ?_ (h.closed_iff.trans sublist_concat_start.symm)
    simp [hidle]

/-- **A `stop` that finds the server started closes the acceptor.** -/
theorem Consistent.stop {w : Accepting} (h : w.Consistent) (hon : w.server.started = true) :
    Consistent { w with
      server := { w.server with started := false }
      pending := some .stop
      calls := w.calls ++ [.stop]
      returned := none } := by
  refine ⟨fun _ hne => absurd rfl hne, fun hr => absurd rfl hr, ?_, ?_, ?_⟩
  · rintro (hs | hs)
    · exact absurd hs (by simp)
    · exact absurd hs (by simp)
  · intro _ _ hne
    exact absurd rfl hne
  · exact ⟨fun _ => sublist_concat_stop.mpr (h.start_mem (.inl hon)), fun _ => .inr rfl⟩

/-- **Another `stop` came before any `start`, or after the acceptor was closed.** -/
theorem Consistent.stop_again {w : Accepting} (h : w.Consistent) (hidle : w.pending = none)
    (hoff : w.server.started = false) :
    Consistent { w with calls := w.calls ++ [.stop], returned := none } := by
  have hmem : SwitchCall.start ∈ w.calls ++ [.stop] ↔ .start ∈ w.calls := by simp
  refine ⟨h.one, fun hr => absurd rfl hr, ?_, ?_, ?_⟩
  · intro hs
    exact hmem.mpr (h.start_mem hs)
  · intro hin
    exact h.running (hmem.mp hin)
  · rw [sublist_concat_stop]
    constructor
    · intro hclosed
      exact mem_of_sublist (h.closed_iff.mp hclosed)
    · intro hin
      cases hopen : w.server.acceptorOpen with
      | false => exact .inl rfl
      | true =>
        rcases h.running hin hopen (by simp [hidle]) with hs | hs
        · exact absurd (hoff.symm.trans hs) (by simp)
        · exact absurd (hidle.symm.trans hs) (by simp)

theorem Consistent.runStart {w : Accepting} (h : w.Consistent) (hp : w.pending = some .start) :
    Consistent { w with
      server := w.server.startImpl.2
      pending := none
      returned := some w.server.startImpl.1 } := by
  obtain ⟨h1, h2, h3⟩ := startImpl_frame w.server
  refine ⟨fun hopen _ => ?_, fun _ => ⟨h1, rfl⟩, fun _ => h.start_mem (.inr hp),
    fun _ _ _ => .inl h1, ?_⟩
  · have hopen : w.server.acceptorOpen = true := h2.symm.trans hopen
    have hone := h.one hopen (by simp [hp])
    show w.server.startImpl.2.env.outstanding + w.server.startImpl.2.env.completed.length = _
    rw [h3, h1, if_pos rfl]
    split
    · rename_i hon
      rwa [if_pos hon] at hone
    · rename_i hoff
      rw [if_neg hoff] at hone
      rw [hopen]
      show w.server.env.outstanding + 1 + w.server.env.completed.length = 1
      omega
  · show (w.server.startImpl.2.acceptorOpen = false ∨ none = some SwitchCall.stop) ↔ _
    rw [h2]
    refine Iff.trans ?_ h.closed_iff
    simp [hp]

theorem Consistent.runStop {w : Accepting} (h : w.Consistent) (hp : w.pending = some .stop) :
    Consistent { w with server := w.server.stopImpl, pending := none } := by
  obtain ⟨h1, h2⟩ := stopImpl_frame w.server
  refine ⟨fun hopen => absurd (h2.symm.trans hopen) (by simp), fun hr => ?_, ?_,
    fun _ hopen => absurd (h2.symm.trans hopen) (by simp), ?_⟩
  · exact absurd (hp.symm.trans (h.returned hr).2) (by simp)
  · rintro (hs | hs)
    · exact h.start_mem (.inl (h1.symm.trans hs))
    · exact absurd hs (by simp)
  · exact ⟨fun _ => h.closed_iff.mp (.inr hp), fun _ => .inl h2⟩

/-- A step that leaves the calls alone and replaces a wait by a wait. -/
theorem Consistent.congr {w : Accepting} (h : w.Consistent) {s : Server.Ctx Accepts}
    (hopen : s.acceptorOpen = w.server.acceptorOpen) (hstarted : s.started = w.server.started)
    (hone : w.server.acceptorOpen = true → s.env.outstanding + s.env.completed.length =
      w.server.env.outstanding + w.server.env.completed.length) :
    Consistent { w with server := s } := by
  refine ⟨?_, ?_, ?_, ?_, ?_⟩
  · intro ho hne
    have ho : w.server.acceptorOpen = true := hopen.symm.trans ho
    show s.env.outstanding + s.env.completed.length = if s.started then 1 else 0
    rw [hone ho, hstarted]
    exact h.one ho hne
  · show w.returned ≠ none → s.started = true ∧ _
    rw [hstarted]
    exact h.returned
  · show s.started = true ∨ _ → _
    rw [hstarted]
    exact h.start_mem
  · show _ → s.acceptorOpen = true → _ → s.started = true ∨ _
    rw [hopen, hstarted]
    exact h.running
  · show s.acceptorOpen = false ∨ _ ↔ _
    rw [hopen]
    exact h.closed_iff

theorem Consistent.step {w v : Accepting} {e : AcceptEvent} (h : w.Consistent)
    (hs : w.step e = some v) : v.Consistent := by
  cases e with
  | call kind =>
    simp only [Accepting.step] at hs
    split at hs
    · exact absurd hs (by simp)
    · rename_i hidle
      rw [← Option.some.inj hs]
      exact h.start hidle
    · rename_i hidle
      rw [← Option.some.inj hs]
      split
      · rename_i hon
        exact h.stop hon
      · rename_i hoff
        exact h.stop_again hidle (Bool.eq_false_of_not_eq_true hoff)
  | runTask =>
    simp only [Accepting.step] at hs
    split at hs
    · exact absurd hs (by simp)
    · rename_i hp
      rw [← Option.some.inj hs]
      exact h.runStart hp
    · rename_i hp
      rw [← Option.some.inj hs]
      exact h.runStop hp
  | accepted ec =>
    simp only [Accepting.step] at hs
    split at hs
    · exact absurd hs (by simp)
    · rename_i hpos
      rw [← Option.some.inj hs]
      refine h.congr rfl rfl (fun _ => ?_)
      show w.server.env.outstanding - 1 + (w.server.env.completed ++ [ec]).length = _
      rw [List.length_append, List.length_singleton]
      omega
  | runHandler i =>
    obtain ⟨ec, hi, rfl⟩ := Option.map_eq_some_iff.mp hs
    obtain ⟨hlt, -⟩ := List.getElem?_eq_some_iff.mp hi
    generalize hu : ({ w.server with
      env := { w.server.env with completed := w.server.env.completed.eraseIdx i } } :
        Server.Ctx Accepts) = u
    have huopen : u.acceptorOpen = w.server.acceptorOpen := by rw [← hu]
    have hustarted : u.started = w.server.started := by rw [← hu]
    cases hopen : u.acceptorOpen with
    | false =>
      rw [onAccepted_closed u ec hopen]
      refine h.congr huopen hustarted (fun ho => ?_)
      exact absurd ((huopen.trans ho).symm.trans hopen) (by simp)
    | true =>
      obtain ⟨h1, h2, h3⟩ := onAccepted_open u ec hopen
      refine h.congr (h1.trans (hopen.symm.trans huopen)) (h2.trans hustarted) (fun _ => ?_)
      rw [h3, ← hu]
      show w.server.env.outstanding + 1 + (w.server.env.completed.eraseIdx i).length = _
      rw [List.length_eraseIdx_of_lt hlt]
      omega
  | tick =>
    rw [← Option.some.inj hs]
    exact h.congr rfl rfl (fun _ => rfl)
  | advance time =>
    rw [← Option.some.inj hs]
    exact h.congr rfl rfl (fun _ => rfl)

/-- **A server that was started is listening exactly if no `stop` ever came after a
`start`.** -/
theorem listening_iff {serial : Nat} {es : List AcceptEvent} {w : Accepting}
    (h : Run.run step (new serial) es = some w) (hr : w.returned = some true) :
    w.Listening ↔ ¬ List.Sublist [.start, .stop] w.calls := by
  have hw : w.Consistent :=
    Run.run_invariant (fun _ _ _ hc _ hs => Consistent.step hc hs) (consistent_new serial)
      (Run.along_true _ es) h
  obtain ⟨hon, hidle⟩ := hw.returned (by simp [hr])
  rw [← hw.closed_iff]
  constructor
  · rintro ⟨hopen, -⟩ (hclosed | hp)
    · exact absurd (hopen.symm.trans hclosed) (by simp)
    · exact absurd (hidle.symm.trans hp) (by simp)
  · intro hno
    have hopen : w.server.acceptorOpen = true := Bool.eq_true_of_not_eq_false (fun hc => hno (.inl hc))
    have hone := hw.one hopen (by simp [hidle])
    rw [if_pos hon] at hone
    exact ⟨hopen, hone⟩

/-- A server that accepts one connection and fails to accept another. -/
def twoAccepts : List AcceptEvent :=
  [.call .stop, .call .start, .runTask, .accepted false, .runHandler 0, .accepted true,
    .runHandler 0]

theorem listening_iff_twice :
    ∃ w, Run.run step (new 1) twoAccepts = some w ∧ w.returned = some true ∧
      (w.Listening ↔ ¬ List.Sublist [.start, .stop] w.calls) :=
  ⟨_, rfl, rfl, listening_iff (show Run.run step (new 1) twoAccepts = some _ from rfl) rfl⟩

/-- A server that is started after a stop. -/
def restart : List AcceptEvent :=
  [.call .start, .runTask, .call .stop, .runTask, .runHandler 0, .call .start, .runTask,
    .runHandler 0]

/-- It does not accept, though `start` returned true: the one `async_accept` failed and
was not repeated. -/
theorem deaf_after_restart :
    ∃ w, Run.run step (new 1) restart = some w ∧ w.returned = some true ∧ w.pending = none ∧
      ¬ w.Listening ∧ w.server.env = ⟨0, []⟩ :=
  ⟨_, rfl, rfl, rfl, fun h => absurd h.1 (by decide), rfl⟩

end Accepting

end Ibase
