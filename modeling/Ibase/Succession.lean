import Ibase.Link
import Ibase.World

/-!
# One connection after another

The completions of a connection that was closed run behind the handlers that were
queued, and the client does not look whose they are.  An operation is stale when
the current attempt began after a `do_close` that came after its start.  The
condition under which stale completions do nothing is on two moments.  A
`do_connect` must find no completion left to run of an operation that a
`do_close` came after, other than that of a successful write.  A `stop_impl` must
find the client not started, no successful connect queued, and no connect
outstanding that `do_close` would leave alone.
-/

namespace Ibase

open Relation

/-- The completion of a successful write, which does nothing. -/
def Handler.Harmless (h : Handler) : Prop := ∃ tag, h = .write tag false

instance (h : Handler) : Decidable h.Harmless :=
  match h with
  | .write tag false => isTrue ⟨tag, rfl⟩
  | .write _ true => isFalse (by rintro ⟨_, h⟩; simp at h)
  | .connect .. | .readSome .. | .task .. | .wait .. => isFalse (by rintro ⟨_, h⟩; simp at h)

/-- Nothing that an operation of before a `do_close` still completes with can do
anything. -/
def ConnectEntry.Quiet (e : ConnectEntry) : Prop :=
  ∀ h ∈ e.pending, h.Harmless ∨ ∀ tag ∈ h.tag?, e.closes ≤ tag.closes

instance (e : ConnectEntry) : Decidable e.Quiet :=
  inferInstanceAs (Decidable (∀ h ∈ e.pending, h.Harmless ∨ ∀ tag ∈ h.tag?, e.closes ≤ tag.closes))

/-- Is this the completion of a connect that succeeded? -/
def Handler.isConnected : Handler → Bool
  | .connect _ false => true
  | _ => false

/-- The client is not started, and no connect succeeds later. -/
def StopEntry.Clean (e : StopEntry) : Prop :=
  e.started = false ∧ (∀ h ∈ e.ready, h.isConnected = false) ∧
    (e.connectState = .disconnected → e.connectOp = none)

instance (e : StopEntry) : Decidable e.Clean :=
  inferInstanceAs (Decidable (e.started = false ∧ (∀ h ∈ e.ready, h.isConnected = false) ∧
    (e.connectState = .disconnected → e.connectOp = none)))

namespace Io

/-- Every `do_connect` and every `stop_impl` so far met the condition. -/
def Undisturbed (io : Io) : Prop :=
  (∀ e ∈ io.connectLog, e.Quiet) ∧ ∀ e ∈ io.stopLog, e.Clean

instance (io : Io) : Decidable io.Undisturbed :=
  inferInstanceAs (Decidable ((∀ e ∈ io.connectLog, e.Quiet) ∧ ∀ e ∈ io.stopLog, e.Clean))

/-- Was this operation started before a `do_close` that came before the current
attempt? -/
def Stale (io : Io) (tag : OpTag) : Prop := tag.closes < io.attemptCloses

instance (io : Io) (tag : OpTag) : Decidable (io.Stale tag) :=
  inferInstanceAs (Decidable (tag.closes < io.attemptCloses))

/-- No completion but a harmless one is of a stale operation. -/
structure Current (io : Io) : Prop where
  closes_le : io.attemptCloses ≤ io.closes
  ready : ∀ h ∈ io.ready, h.Harmless ∨ ∀ tag ∈ h.tag?, ¬ io.Stale tag
  readOps : ∀ op ∈ io.readOps, ¬ io.Stale op.1
  writeOps : ∀ tag ∈ io.writeOps, ¬ io.Stale tag
  connectOp : ∀ tag ∈ io.connectOp, ¬ io.Stale tag

/-- A handler of no operation, or of one that is not stale, may be queued. -/
theorem Current.ready_append {io : Io} (h : io.Current) {hs : List Handler}
    (hhs : ∀ h ∈ hs, ∀ tag ∈ h.tag?, ¬ io.Stale tag) :
    ∀ h ∈ io.ready ++ hs, h.Harmless ∨ ∀ tag ∈ h.tag?, ¬ io.Stale tag := by
  intro g hg
  rcases List.mem_append.mp hg with hg | hg
  · exact h.ready g hg
  · exact .inr (hhs g hg)

theorem Current.not_stale_aborted {io : Io} (h : io.Current) :
    ∀ g ∈ io.aborted, ∀ tag ∈ g.tag?, ¬ io.Stale tag := by
  intro g hg tag htag
  rcases List.mem_append.mp hg with hg | hg
  · obtain ⟨op, hop, rfl⟩ := List.mem_map.mp hg
    exact Option.some.inj htag ▸ h.readOps op hop
  rcases List.mem_append.mp hg with hg | hg
  · obtain ⟨tag', hop, rfl⟩ := List.mem_map.mp hg
    exact Option.some.inj htag ▸ h.connectOp tag' (Option.mem_toList.mp hop)
  · obtain ⟨tag', hop, rfl⟩ := List.mem_map.mp hg
    exact Option.some.inj htag ▸ h.writeOps tag' hop

theorem Current.abort {io : Io} (h : io.Current) : io.abort.Current :=
  ⟨h.closes_le, h.ready_append h.not_stale_aborted, by simp [Io.abort], by simp [Io.abort],
    by simp [Io.abort]⟩

theorem Current.nowTag {io : Io} (h : io.Current) : ¬ io.Stale io.nowTag :=
  Nat.not_lt.mpr h.closes_le

/-- A handler joins, of an operation begun now or of none. -/
theorem Current.hand {io : Io} (h : io.Current) {g : Handler}
    (hg : ∀ tag ∈ g.tag?, tag = io.nowTag) :
    ({ io with ready := io.ready ++ [g] } : Io).Current := by
  refine ⟨h.closes_le, h.ready_append ?_, h.readOps, h.writeOps, h.connectOp⟩
  intro g' hg' tag htag
  rw [List.mem_singleton.mp hg'] at htag
  exact hg tag htag ▸ h.nowTag

theorem Current.ready_tail {io : Io} (h : io.Current) {g : Handler} {rest : List Handler}
    (hr : io.ready = g :: rest) : ({ io with ready := rest } : Io).Current :=
  ⟨h.closes_le, fun g' hg' => h.ready g' (by rw [hr]; exact List.mem_cons_of_mem g hg'),
    h.readOps, h.writeOps, h.connectOp⟩

/-- No effect but a new connection attempt makes an operation stale. -/
theorem Current.react {io : Io} (h : io.Current) {effect : Effect}
    (he : ∀ host port, effect ≠ .asyncConnect host port) : (io.react effect).Current := by
  cases effect with
  | asyncConnect host port => exact absurd rfl (he host port)
  | asyncReadSome buf isOpen =>
    cases isOpen with
    | true =>
      refine ⟨h.closes_le, h.ready, ?_, h.writeOps, h.connectOp⟩
      intro op hop
      rcases List.mem_append.mp hop with hop | hop
      · exact h.readOps op hop
      · rw [List.mem_singleton.mp hop]
        exact h.nowTag
    | false => exact h.hand fun tag htag => (Option.some.inj htag).symm
  | asyncWrite packet isOpen =>
    cases isOpen with
    | true =>
      refine ⟨h.closes_le, h.ready, h.readOps, ?_, h.connectOp⟩
      intro tag htag
      rcases List.mem_append.mp htag with htag | htag
      · exact h.writeOps tag htag
      · rw [List.mem_singleton.mp htag]
        exact h.nowTag
    | false => exact h.hand fun tag htag => (Option.some.inj htag).symm
  | closeSocket => exact h.abort
  | post task => exact h.hand fun tag htag => absurd htag (by simp [Handler.tag?])
  | cancelTimer timerId =>
    refine ⟨h.closes_le, h.ready_append ?_, h.readOps, h.writeOps, h.connectOp⟩
    intro g hg tag htag
    obtain ⟨id, -, rfl⟩ := List.mem_map.mp hg
    exact absurd htag (by simp [Handler.tag?])
  | doClose => exact ⟨Nat.le_succ_of_le h.closes_le, h.ready, h.readOps, h.writeOps, h.connectOp⟩
  | expiresAfter timerId seconds =>
    exact ⟨h.closes_le, h.ready, h.readOps, h.writeOps, h.connectOp⟩
  | doConnect unread => exact ⟨h.closes_le, h.ready, h.readOps, h.writeOps, h.connectOp⟩
  | startImpl => exact ⟨h.closes_le, h.ready, h.readOps, h.writeOps, h.connectOp⟩
  | stopImpl started connectState => exact ⟨h.closes_le, h.ready, h.readOps, h.writeOps, h.connectOp⟩
  | _ => exact h

/-- The logs only grow. -/
theorem undisturbed_of_perform {io : Io} {effect : Effect}
    (h : Io.Undisturbed (Platform.perform effect io)) : io.Undisturbed := by
  cases effect with
  | doConnect unread => exact ⟨fun e he => h.1 e (List.mem_append_left _ he), h.2⟩
  | stopImpl started connectState => exact ⟨h.1, fun e he => h.2 e (List.mem_append_left _ he)⟩
  | asyncReadSome buf isOpen => cases isOpen <;> exact h
  | asyncWrite packet isOpen => cases isOpen <;> exact h
  | _ => exact h

theorem Current.perform {io : Io} (h : io.Current) {effect : Effect}
    (he : ∀ host port, effect ≠ .asyncConnect host port) :
    Io.Current (Platform.perform effect io) :=
  have h' := h.react he
  ⟨h'.closes_le, h'.ready, h'.readOps, h'.writeOps, h'.connectOp⟩

/-- Only a new connection attempt starts a connect. -/
theorem connectOp_of_perform {io : Io} {effect : Effect} {tag : OpTag}
    (he : ∀ host port, effect ≠ .asyncConnect host port)
    (h : tag ∈ (Platform.perform effect io : Io).connectOp) : tag ∈ io.connectOp := by
  cases effect with
  | asyncConnect host port => exact absurd rfl (he host port)
  | closeSocket => exact absurd h (by simp [Platform.perform, Io.react, Io.abort])
  | asyncReadSome buf isOpen => cases isOpen <;> exact h
  | asyncWrite packet isOpen => cases isOpen <;> exact h
  | _ => exact h

end Io

/-! ### The connection among its operations -/

namespace Link

/-- A connect is outstanding on an open socket only. -/
structure Single (l : Link Io) : Prop where
  current : l.env.Current
  opened : ∀ tag ∈ l.env.connectOp, l.socketOpen = true

/-- What holds between two handlers: also, a client that was stopped stays so. -/
structure Orderly (l : Link Io) : Prop extends Single l where
  stopped : l.env.stopped = true → l.started = false ∧ l.connectState = .disconnected ∧
    (∀ tag, tag ∉ l.env.connectOp) ∧ ∀ tag, .connect tag false ∉ l.env.ready

theorem Single.emit {l : Link Io} (h : l.Single) {effect : Effect}
    (he : ∀ host port, effect ≠ .asyncConnect host port) : (l.emit effect).Single :=
  ⟨h.current.perform he, fun tag htag => h.opened tag (Io.connectOp_of_perform he htag)⟩

/-- Most effects change nothing of that. -/
theorem Orderly.emit {l : Link Io} (h : l.Orderly) {effect : Effect}
    (he : ∀ host port, effect ≠ .asyncConnect host port)
    (hs : (l.emit effect).env.stopped = true → l.env.stopped = true) : (l.emit effect).Orderly := by
  refine ⟨h.toSingle.emit he, fun hst => ?_⟩
  obtain ⟨h1, h2, h3, h4⟩ := h.stopped (hs hst)
  exact ⟨h1, h2, fun tag htag => h3 tag (Io.connectOp_of_perform he htag),
    fun tag hmem => h4 tag (Io.succeeded_of_perform rfl hmem)⟩

theorem Single.close {l : Link Io} (h : l.Single) : l.close.Single := by
  have hmark : (l.emit .doClose).Single := h.emit (by simp)
  rcases close_cases l with ⟨-, heq⟩ | ⟨-, -, heq⟩ | ⟨-, -, heq⟩
  · rw [heq]
    exact hmark
  · rw [heq]
    exact ⟨hmark.current, hmark.opened⟩
  · rw [heq]
    refine ⟨hmark.current.perform (by simp), fun tag htag => ?_⟩
    exact absurd htag (by simp [Link.emit, Platform.perform, Io.react, Io.abort])

/-- `do_close` ends every connect, unless the client counts as disconnected. -/
theorem Single.connectOp_close {l : Link Io} (h : l.Single)
    (hd : l.connectState = .disconnected → l.env.connectOp = none) :
    l.close.env.connectOp = none := by
  rcases close_cases l with ⟨hdis, heq⟩ | ⟨-, ho, heq⟩ | ⟨-, -, heq⟩
  · rw [heq]
    exact hd hdis
  · rw [heq]
    show l.env.connectOp = none
    cases hop : l.env.connectOp with
    | none => rfl
    | some tag =>
      rw [h.opened tag hop] at ho
      exact absurd ho (by decide)
  · rw [heq]
    rfl

theorem close_keeps (l : Link Io) :
    l.close.connectState = .disconnected ∧ l.close.started = l.started ∧
      l.close.env.stopped = l.env.stopped ∧ (l.close.env.Undisturbed → l.env.Undisturbed) ∧
      ∀ tag, .connect tag false ∈ l.close.env.ready → .connect tag false ∈ l.env.ready := by
  rcases close_cases l with ⟨hd, heq⟩ | ⟨-, -, heq⟩ | ⟨-, -, heq⟩
  · rw [heq]
    exact ⟨hd, rfl, rfl, id, fun tag h => h⟩
  · rw [heq]
    exact ⟨rfl, rfl, rfl, id, fun tag h => h⟩
  · rw [heq]
    refine ⟨rfl, rfl, rfl, id, fun tag h => ?_⟩
    have hmark : .connect tag false ∈ (l.emit .doClose).env.ready := Io.succeeded_of_perform rfl h
    exact hmark

theorem Orderly.close {l : Link Io} (h : l.Orderly) : l.close.Orderly := by
  obtain ⟨hdis, hstarted, hstopped, -, hready⟩ := close_keeps l
  refine ⟨h.toSingle.close, fun hst => ?_⟩
  obtain ⟨h2, -, h3, h4⟩ := h.stopped (hstopped ▸ hst)
  have hnone := h.toSingle.connectOp_close (fun _ => Option.eq_none_iff_forall_not_mem.mpr h3)
  exact ⟨hstarted.trans h2, hdis, by simp [hnone], fun tag hmem => h4 tag (hready tag hmem)⟩

/-- A quiet `do_connect`. -/
theorem orderly_connect {l : Link Io} (hs : l.env.stopped = false)
    (hq : ∀ g ∈ l.env.pending, g.Harmless ∨ ∀ tag ∈ g.tag?, l.env.closes ≤ tag.closes) :
    l.connect.Orderly := by
  refine ⟨⟨⟨Nat.le_refl _, ?_, by simp [connect, Link.emit, Platform.perform, Io.react, Io.abort],
    by simp [connect, Link.emit, Platform.perform, Io.react, Io.abort], ?_⟩, fun _ _ => rfl⟩, ?_⟩
  · intro g hg
    have hpending : g.tag? = none ∨ g ∈ l.env.pending := by
      rcases List.mem_append.mp hg with hg | hg
      · cases ht : g.tag? with
        | none => exact .inl rfl
        | some tag =>
          exact .inr (List.mem_append_left _ (List.mem_filter.mpr ⟨hg, by simp [ht]⟩))
      · exact .inr (List.mem_append_right _ hg)
    rcases hpending with ht | hmem
    · exact .inr (by simp [ht])
    · exact (hq g hmem).imp_right (fun hf tag htag => Nat.not_lt.mpr (hf tag htag))
  · intro tag htag
    rw [← Option.some.inj htag]
    exact Nat.lt_irrefl _
  · intro hst
    have hst' : l.env.stopped = true := hst
    rw [hs] at hst'
    exact absurd hst' (by decide)

/-- A clean `stop_impl`. -/
theorem Single.stop {l : Link Io} (h : l.Single) (hstart : l.started = false)
    (hok : ∀ tag, .connect tag false ∉ l.env.ready)
    (hd : l.connectState = .disconnected → l.env.connectOp = none) : l.stop.Orderly := by
  have hmark : (l.emit (.stopImpl l.started l.connectState)).Single := h.emit (by simp)
  have h1 := hmark.close
  have hnone : l.stop.env.connectOp = none := hmark.connectOp_close hd
  obtain ⟨hdis, hstarted, -, -, hready⟩ := close_keeps (l.emit (.stopImpl l.started l.connectState))
  refine ⟨⟨h1.current, h1.opened⟩, fun _ => ⟨hstarted.trans hstart, hdis, by simp [hnone],
    fun tag hmem => ?_⟩⟩
  exact hok tag (Io.succeeded_of_perform rfl (hready tag hmem))

theorem Orderly.write {l : Link Io} (h : l.Orderly) (packet : SharedPacket) :
    (l.emit (.asyncWrite packet l.socketOpen)).Orderly := by
  refine h.emit (by simp) ?_
  cases l.socketOpen <;> exact id

/-- **What happens to the connection outside the handlers of its completions keeps
it orderly**, as long as the logs meet the condition. -/
theorem orderly_step {l m : Link Io} (h : Step l m) (hm : m.env.Undisturbed)
    (hl : l.env.Undisturbed → l.Orderly) : m.Orderly := by
  cases h with
  | emit effect h =>
    have hl := hl (Io.undisturbed_of_perform hm)
    cases effect <;> first | exact Bool.noConfusion h | exact hl.emit (by simp) id
  | write packet h hp => exact (hl (Io.undisturbed_of_perform hm)).write packet
  | later t => exact ⟨⟨(hl hm).current, (hl hm).opened⟩, (hl hm).stopped⟩
  | forget h => exact ⟨⟨(hl hm).current, (hl hm).opened⟩, (hl hm).stopped⟩
  | clearStarted =>
    have hl := hl hm
    exact ⟨⟨hl.current, hl.opened⟩, fun hst => ⟨rfl, (hl.stopped hst).2⟩⟩
  | start host port h =>
    -- `start_impl` ends the stopped state before it connects
    have hlog := Io.undisturbed_of_perform hm
    exact orderly_connect (l := { l.emit .startImpl with started := true, host := host, port := port })
      rfl (hlog.1 _ (List.mem_append_right _ (List.mem_singleton.mpr rfl)))
  | connect h hs =>
    have hlog := Io.undisturbed_of_perform hm
    have hl := hl (Io.undisturbed_of_perform hlog)
    have hlive : l.env.stopped = false := by
      cases hst : l.env.stopped with
      | false => rfl
      | true =>
        rw [(hl.stopped hst).1] at h
        exact absurd h (by decide)
    exact orderly_connect hlive (hlog.1 _ (List.mem_append_right _ (List.mem_singleton.mpr rfl)))
  | stop =>
    have hlog := (close_keeps (l.emit (.stopImpl l.started l.connectState))).2.2.2.1 hm
    have hl := hl (Io.undisturbed_of_perform hlog)
    obtain ⟨h1, h2, h3⟩ := hlog.2 _ (List.mem_append_right _ (List.mem_singleton.mpr rfl))
    exact hl.toSingle.stop h1 (fun tag hmem => Bool.noConfusion (h2 _ hmem)) h3

theorem orderly_steps {l m : Link Io} (h : ReflTransGen Step l m)
    (hl : l.env.Undisturbed → l.Orderly) : m.env.Undisturbed → m.Orderly := by
  induction h with
  | refl => exact hl
  | tail _ hstep ih => exact fun hm => orderly_step hstep hm ih

theorem Orderly.read {l : Link Io} (h : l.Orderly) : l.read.Orderly := by
  rcases read_cases l with heq | ⟨-, -, size, heq⟩
  · rw [heq]
    exact h
  · rw [heq]
    refine Orderly.emit (l := { l with readPending := true, readBuf := (l.readBuf.prepare size).2 })
      ⟨⟨h.current, h.opened⟩, h.stopped⟩ (by simp) ?_
    cases l.socketOpen <;> exact id

/-- The buffer and the flag of reads are not part of that. -/
theorem Orderly.of_reading {l m : Link Io} (h : l.Orderly) (henv : m.env = l.env)
    (hs : m.started = l.started) (hst : m.connectState = l.connectState)
    (ho : m.socketOpen = l.socketOpen) : m.Orderly := by
  obtain ⟨_, _, _, _, _, _, _, _, _, _⟩ := l
  obtain ⟨_, _, _, _, _, _, _, _, _, _⟩ := m
  simp only at henv hs hst ho
  subst henv hs hst ho
  exact ⟨⟨h.current, h.opened⟩, h.stopped⟩

/-- An operation other than a connect completes: it is no longer outstanding, and
its handler is queued. -/
theorem Orderly.complete {l : Link Io} (h : l.Orderly) {g : Handler} (hg : ∀ tag ec, g ≠ .connect tag ec)
    (hfresh : ∀ tag ∈ g.tag?, ¬ l.env.Stale tag) {readOps : List (OpTag × Slab)}
    {writeOps : List OpTag} {waits : List UInt32} {rx : List RecvByte} {readBuf : IoBuffer RecvByte}
    (hread : ∀ op ∈ readOps, op ∈ l.env.readOps) (hwrite : ∀ tag ∈ writeOps, tag ∈ l.env.writeOps) :
    Orderly { l with
      readBuf := readBuf
      env := { l.env with
        ready := l.env.ready ++ [g], readOps := readOps, writeOps := writeOps, waits := waits,
        rx := rx } } := by
  refine ⟨⟨⟨h.current.closes_le, h.current.ready_append ?_, fun op hop => h.current.readOps op (hread op hop),
    fun tag htag => h.current.writeOps tag (hwrite tag htag), h.current.connectOp⟩, h.opened⟩, ?_⟩
  · intro g' hg'
    rw [List.mem_singleton.mp hg']
    exact hfresh
  · intro hstop
    obtain ⟨h1, h2, h3, h4⟩ := h.stopped hstop
    refine ⟨h1, h2, h3, fun tag hin => ?_⟩
    rcases List.mem_append.mp hin with hin | hin
    · exact h4 tag hin
    · exact hg tag false (List.mem_singleton.mp hin).symm

/-- A connect completes; a client that was stopped has none outstanding. -/
theorem Orderly.connected {l : Link Io} (h : l.Orderly) {tag : OpTag}
    (hop : l.env.connectOp = some tag) (ec : Bool) :
    Orderly { l with env := { l.env with
      connectOp := none, ready := l.env.ready ++ [.connect tag ec] } } := by
  refine ⟨⟨⟨h.current.closes_le, h.current.ready_append ?_, h.current.readOps, h.current.writeOps,
    by simp⟩, by simp⟩, fun hstop => absurd hop ((h.stopped hstop).2.2.1 tag)⟩
  intro g hg tag' htag'
  rw [List.mem_singleton.mp hg] at htag'
  exact Option.some.inj htag' ▸ h.current.connectOp tag hop

theorem orderly_event {e : Ibase.Event} {l m : Link Io} (h : Event e l m) (hl : l.env.Undisturbed → l.Orderly) :
    m.env.Undisturbed → m.Orderly := by
  cases h with
  | steps h => exact orderly_steps h hl
  | connect tag ec h => exact fun hlog => (hl hlog).connected h ec
  | received op tag slab bytes he h hlen =>
    exact fun hlog => (hl hlog).complete (g := .readSome tag false bytes.length) (by simp)
      (fun t ht => Option.some.inj ht ▸ (hl hlog).current.readOps _ (List.mem_of_getElem? h))
      (fun _ => List.mem_of_mem_eraseIdx) (fun _ => id)
  | readFailed op r h =>
    exact fun hlog => (hl hlog).complete (g := .readSome r.1 true 0) (by simp)
      (fun t ht => Option.some.inj ht ▸ (hl hlog).current.readOps _ (List.mem_of_getElem? h))
      (fun _ => List.mem_of_mem_eraseIdx) (fun _ => id)
  | write op tag ec h =>
    exact fun hlog => (hl hlog).complete (g := .write tag ec) (by simp)
      (fun t ht => Option.some.inj ht ▸ (hl hlog).current.writeOps _ (List.mem_of_getElem? h))
      (fun _ => id) (fun _ => List.mem_of_mem_eraseIdx)
  | wait wait id' h =>
    exact fun hlog => (hl hlog).complete (by simp) (by simp [Handler.tag?]) (fun _ => id)
      (fun _ => id)

theorem Orderly.receive {l : Link Io} (h : l.Orderly) (packet : SharedPacket) :
    (l.receive packet).Orderly := by
  unfold Link.receive
  split
  · have hack : (l.ack packet).Orderly := by
      rcases l.ack_cases packet with heq | ⟨rspPacket, -, heq⟩
      · rw [heq]
        exact h
      · rw [heq]
        exact h.write rspPacket
    exact hack.of_reading rfl rfl rfl rfl
  · exact h

theorem undisturbed_of_receive {l : Link Io} {packet : SharedPacket}
    (h : (l.receive packet).env.Undisturbed) : l.env.Undisturbed := by
  have hack : (l.ack packet).env.Undisturbed → l.env.Undisturbed := by
    rcases l.ack_cases packet with heq | ⟨rspPacket, -, heq⟩
    · rw [heq]
      exact id
    · rw [heq]
      exact Io.undisturbed_of_perform
  unfold Link.receive at h
  split at h
  · exact hack h
  · exact h

theorem undisturbed_of_read {l : Link Io} (h : l.read.env.Undisturbed) : l.env.Undisturbed := by
  rcases read_cases l with heq | ⟨-, -, size, heq⟩
  · rwa [heq] at h
  · rw [heq] at h
    exact Io.undisturbed_of_perform h

end Link

/-! ### The handlers -/

namespace Ctx

/-- The client is orderly if the logs met the condition so far. -/
def KeepsOrder (c : Ctx Io) : Prop := c.env.Undisturbed → c.link.Orderly

theorem KeepsOrder.moves {c d : Ctx Io} (h : c.KeepsOrder) (hm : c.Moves d) : d.KeepsOrder :=
  Link.orderly_steps hm h

theorem KeepsOrder.doReadPacket {c : Ctx Io} (h : c.KeepsOrder) : c.doReadPacket.KeepsOrder := by
  intro hlog
  have hlog' : c.link.read.env.Undisturbed := link_doReadPacket c ▸ hlog
  rw [link_doReadPacket]
  exact (h (Link.undisturbed_of_read hlog')).read

theorem KeepsOrder.doClose {c : Ctx Io} (h : c.KeepsOrder) : c.doClose.KeepsOrder := by
  intro hlog
  have hlog' : c.link.close.env.Undisturbed := link_doClose c ▸ hlog
  rw [link_doClose]
  exact (h ((Link.close_keeps c.link).2.2.2.1 hlog')).close

theorem KeepsOrder.of_reading {c d : Ctx Io} (h : c.KeepsOrder) (henv : d.env = c.env)
    (hs : d.started = c.started) (hst : d.connectState = c.connectState)
    (ho : d.socketOpen = c.socketOpen) : d.KeepsOrder :=
  fun hlog => (h (henv ▸ hlog)).of_reading henv hs hst ho

theorem KeepsOrder.processPacket {c : Ctx Io} (h : c.KeepsOrder) : c.processPacket.KeepsOrder := by
  refine (receiver (E := Io)).processPacket_invariant (P := KeepsOrder) ?_ ?_ _ h
  · intro s hs
    exact hs.of_reading rfl rfl rfl rfl
  · intro s p _ hs
    have hmark : ((receiver.consumed s).emit (.recvPacket (receiver.frameItems s p) p)).KeepsOrder := by
      intro hlog
      exact (hs.of_reading (d := receiver.consumed s) rfl rfl rfl rfl hlog).emit (by simp) id
    refine Link.orderly_steps (moves_dispatchPacket _ (SharedPacket.received p)) fun hlog => ?_
    exact (hmark (Link.undisturbed_of_receive hlog)).receive _

theorem KeepsOrder.onReadCompleted {c : Ctx Io} (h : c.KeepsOrder) (ec : Bool) (length : Nat) :
    (c.onReadCompleted ec length).KeepsOrder := by
  have h1 : ({ c with readPending := false } : Ctx Io).KeepsOrder := h.of_reading rfl rfl rfl rfl
  rw [Ctx.onReadCompleted]
  cases ec with
  | true => exact h1.doClose
  | false =>
    refine KeepsOrder.doReadPacket ?_
    split
    · exact KeepsOrder.processPacket (h1.of_reading rfl rfl rfl rfl)
    · exact h1

theorem KeepsOrder.onWriteCompleted {c : Ctx Io} (h : c.KeepsOrder) (ec : Bool) :
    (c.onWriteCompleted ec).KeepsOrder := by
  cases ec with
  | true => exact h.doClose
  | false => exact h

/-- The completion of a connect; it does not succeed after a `stop_impl`. -/
theorem KeepsOrder.onConnectCompleted {c : Ctx Io} (h : c.KeepsOrder) (ec : Bool)
    (hst : c.env.Undisturbed → ec = false → c.env.stopped = false) :
    (c.onConnectCompleted ec).KeepsOrder := by
  cases ec with
  | true =>
    intro hlog
    have hc := h hlog
    exact ⟨⟨hc.current, hc.opened⟩, fun hst => ⟨(hc.stopped hst).1, rfl, (hc.stopped hst).2.2⟩⟩
  | false =>
    refine KeepsOrder.doReadPacket (c := { c with connectState := .connected }) ?_
    intro hlog
    refine ⟨⟨(h hlog).current, (h hlog).opened⟩, fun hstop => ?_⟩
    have hstop' : c.env.stopped = true := hstop
    rw [hst hlog rfl] at hstop'
    exact absurd hstop' (by decide)

end Ctx

/-! ### Whole runs -/

namespace World

def KeepsOrder (w : World) : Prop := w.io.Undisturbed → w.link.Orderly

theorem keepsOrder_new : new.KeepsOrder := by
  intro _
  exact ⟨⟨⟨Nat.le_refl _, by simp [link, enter, Ctx.link, new, Io.new],
    by simp [link, enter, Ctx.link, new, Io.new], by simp [link, enter, Ctx.link, new, Io.new],
    by simp [link, enter, Ctx.link, new, Io.new]⟩, by simp [link, enter, Ctx.link, new, Io.new]⟩,
    fun h => absurd h (by decide)⟩

/-- The next handler runs. -/
theorem KeepsOrder.run {w : World} (h : w.KeepsOrder) {g : Handler} {rest : List Handler}
    (hr : w.io.ready = g :: rest) (script : List CallbackRun) :
    KeepsOrder (w.leave ((({ w with io := { w.io with ready := rest } } : World).enter script).runHandler g)) := by
  have hc : (({ w with io := { w.io with ready := rest } } : World).enter script).KeepsOrder := by
    intro hlog
    have hw := h hlog
    refine ⟨⟨hw.current.ready_tail hr, hw.opened⟩, fun hstop => ?_⟩
    obtain ⟨h1, h2, h3, h4⟩ := hw.stopped hstop
    refine ⟨h1, h2, h3, fun tag hin => h4 tag ?_⟩
    show _ ∈ w.io.ready
    rw [hr]
    exact List.mem_cons_of_mem g hin
  cases g with
  | task task => exact hc.moves (Ctx.moves_runTask _ task)
  | wait timerId ec => exact hc.moves (Ctx.moves_onTimer _ timerId ec)
  | readSome tag ec length => exact hc.onReadCompleted ec length
  | write tag ec => exact hc.onWriteCompleted ec
  | connect tag ec =>
    refine hc.onConnectCompleted ec (fun hlog hec => ?_)
    show w.io.stopped = false
    cases hst : w.io.stopped with
    | false => rfl
    | true =>
      refine absurd ?_ (((h hlog).stopped hst).2.2.2 tag)
      show _ ∈ w.io.ready
      rw [hr, hec]
      exact List.mem_cons_self

/-- One event. -/
theorem KeepsOrder.step {w v : World} (h : w.KeepsOrder) {e : Event} (hs : w.step e = some v) :
    v.KeepsOrder := by
  rcases step_cases hs with ⟨script, g, rest, hr, rfl⟩ | hev
  · exact h.run hr script
  · exact Link.orderly_event hev h

theorem keepsOrder_run {w : World} {es : List Event} (h : Run.run step new es = some w) :
    w.KeepsOrder :=
  Run.run_invariant (P := fun _ _ => True) (fun _ _ _ hw _ hs => hw.step hs) keepsOrder_new
    (Run.along_true _ _) h

/-- **Completions of a finished connection never disturb its successor**, in every
run in which each `do_connect` and each `stop_impl` meets the condition: the
completion of a stale operation changes nothing but the queue it is taken from,
and a client that was stopped stays disconnected until it is started. -/
theorem stale_completion_harmless {es : List Event} {w : World}
    (h : Run.run step new es = some w) (hlog : w.io.Undisturbed) :
    (∀ (script : List CallbackRun) (v : World) (g : Handler) (rest : List Handler) (tag : OpTag),
      w.step (.run script) = some v → w.io.ready = g :: rest → g.tag? = some tag →
      w.io.Stale tag → v.client = w.client ∧ v.io = { w.io with ready := rest }) ∧
    (w.io.stopped = true → w.client.connectState = .disconnected) := by
  have hw := keepsOrder_run h hlog
  refine ⟨?_, fun hst => (hw.stopped hst).2.1⟩
  intro script v g rest tag hs hr htag hstale
  have hin : g ∈ w.io.ready := by
    rw [hr]
    exact List.mem_cons_self
  have hmild : g.Harmless := by
    rcases hw.current.ready g hin with hg | hg
    · exact hg
    · exact absurd hstale (hg tag htag)
  obtain ⟨tag', rfl⟩ := hmild
  rw [run_eq_some hs hr]
  exact ⟨rfl, rfl⟩

/-- A connection with a write outstanding ends six seconds after it began, while
the tick of the timer is queued. -/
def endBeforeTick : List Event :=
  [.start "host" 1, .run [], .connected, .run [], .run [], .sendDrawSeq 7 none 0 none 0,
    .sendDrawId 0, .sendPost 0, .run [], .advance 6000000000, .readFailed 0, .expired 0]

/-- The write had succeeded. -/
theorem stale_completion_harmless_after_write :
    ∃ w v, Run.run step new (endBeforeTick ++ [.written 0, .run [], .run []]) = some w ∧
      w.step (.run []) = some v ∧ w.io.Stale ⟨1, 0⟩ ∧ v.client = w.client ∧
      v.io = { w.io with ready := [] } ∧
      (w.io.stopped = true → w.client.connectState = .disconnected) := by
  have hrun : (Run.run step new (endBeforeTick ++ [.written 0, .run [], .run []])).map (fun w =>
      (w.io.ready, decide (w.io.Stale ⟨1, 0⟩), decide w.io.Undisturbed,
        (w.step (.run [])).isSome)) = some ([.write ⟨1, 0⟩ false], true, true, true) := by
    decide +kernel
  obtain ⟨w, hw, heq⟩ := Option.map_eq_some_iff.mp hrun
  obtain ⟨hr, hstale, hlog, hv⟩ : _ ∧ _ ∧ _ ∧ _ := by simpa only [Prod.mk.injEq] using heq
  obtain ⟨v, hs⟩ := Option.isSome_iff_exists.mp hv
  have h := stale_completion_harmless hw (of_decide_eq_true hlog)
  have h1 := h.1 [] v _ _ _ hs hr rfl (of_decide_eq_true hstale)
  exact ⟨w, v, hw, hs, of_decide_eq_true hstale, h1.1, h1.2, h.2⟩

/-- **The completion of a finished connection can close its successor.**  The
write was aborted by `do_close`; its handler runs after the tick, which has begun
the next attempt, and closes the socket of that. -/
theorem stale_write_closes_successor :
    ∃ w v, Run.run step new (endBeforeTick ++ [.run [], .run []]) = some w ∧
      w.step (.run []) = some v ∧ w.io.ready = [.write ⟨1, 0⟩ true] ∧ w.io.Stale ⟨1, 0⟩ ∧
      w.io.connectOp = some ⟨2, 1⟩ ∧ w.client.connectState = .connecting ∧
      w.client.socketOpen = true ∧ v.client.connectState = .disconnected ∧
      v.client.socketOpen = false := by
  have hrun : (Run.run step new (endBeforeTick ++ [.run [], .run []])).map (fun w =>
      (w.io.ready, decide (w.io.Stale ⟨1, 0⟩ ∧ w.io.connectOp = some ⟨2, 1⟩ ∧
        w.client.connectState = .connecting ∧ w.client.socketOpen = true),
        (w.step (.run [])).map (fun v => (v.client.connectState, v.client.socketOpen)))) =
      some ([.write ⟨1, 0⟩ true], true, some (.disconnected, false)) := by
    decide +kernel
  obtain ⟨w, hw, heq⟩ := Option.map_eq_some_iff.mp hrun
  obtain ⟨h1, h2, hv⟩ : _ ∧ _ ∧ _ := by simpa only [Prod.mk.injEq] using heq
  obtain ⟨hstale, hop, hstate, hopen⟩ := of_decide_eq_true h2
  obtain ⟨v, hs, hv⟩ := Option.map_eq_some_iff.mp hv
  obtain ⟨h6, h7⟩ := Prod.mk.inj hv
  exact ⟨w, v, hw, hs, h1, hstale, hop, hstate, hopen, h6, h7⟩

end World

end Ibase
