import Ibase.Lib.Retry
import Ibase.Idle
import Ibase.Ownership

/-!
# The retry sweep

`do_resender_check` goes through `write_packets_` once.  It leaves an entry that is not
due, drops one that has no try left, and tries the others again; what it does with an
entry depends on the entry and the time alone (`SendingPacketInfo.swept`).  The client
calls the user back for an entry before it drops it, and what the callback does may not
change the list under the sweep: here no callback calls `stop`.

The client and the session have the sweep of their own each.  Both follow a
`Retry.Policy`, the client's with the two numbers of the entry and the session's with
two constants.
-/

namespace Ibase

/-! ### An entry of the client -/

namespace SendingPacketInfo

/-- Has `interval_seconds` passed since the last try? -/
def isDue (curTimePoint : TimePoint) (it : SendingPacketInfo) : Bool :=
  !decide (secondsPassed curTimePoint it.lastSendTimePoint < it.sendOpt.intervalSeconds.toNat)

/-- The entry, tried again. -/
def resent (curTimePoint : TimePoint) (it : SendingPacketInfo) : SendingPacketInfo :=
  { it with curTries := it.curTries + 1, lastSendTimePoint := curTimePoint }

/-- What the sweep leaves of the entry. -/
def swept (curTimePoint : TimePoint) (it : SendingPacketInfo) : Option SendingPacketInfo :=
  if it.isDue curTimePoint = false then some it
  else if it.curTries ≥ it.sendOpt.tries then none
  else some (it.resent curTimePoint)

def item (it : SendingPacketInfo) : Retry.Item TimePoint := ⟨it.curTries.toNat, it.lastSendTimePoint⟩

def policy (it : SendingPacketInfo) : Retry.Policy TimePoint where
  due last cur := !decide (secondsPassed cur last < it.sendOpt.intervalSeconds.toNat)
  tries := it.sendOpt.tries.toNat

/-- Does the sweep try it again? -/
def isTried (curTimePoint : TimePoint) (it : SendingPacketInfo) : Bool :=
  it.policy.isTried curTimePoint it.item

variable {curTimePoint : TimePoint} {it : SendingPacketInfo}

theorem swept_idle (h : it.isDue curTimePoint = false) : it.swept curTimePoint = some it := if_pos h

theorem swept_drop (h : it.isDue curTimePoint = true) (htries : it.curTries ≥ it.sendOpt.tries) :
    it.swept curTimePoint = none := by
  rw [swept, h, if_neg (by decide), if_pos htries]

theorem swept_try (h : it.isDue curTimePoint = true) (htries : ¬ it.curTries ≥ it.sendOpt.tries) :
    it.swept curTimePoint = some (it.resent curTimePoint) := by
  rw [swept, h, if_neg (by decide), if_neg htries]

theorem timedOut_eq : it.timedOut curTimePoint =
    (it.isDue curTimePoint && decide (it.curTries ≥ it.sendOpt.tries)) := rfl

theorem isTried_eq : it.isTried curTimePoint =
    (it.isDue curTimePoint && !decide (it.curTries ≥ it.sendOpt.tries)) := by
  have htries : decide (it.item.made < it.policy.tries) =
      !decide (it.curTries ≥ it.sendOpt.tries) := by
    by_cases h : it.curTries ≥ it.sendOpt.tries
    · have hle : it.policy.tries ≤ it.item.made := UInt32.le_iff_toNat_le.mp h
      rw [decide_eq_true h, decide_eq_false (Nat.not_lt_of_le hle)]
      rfl
    · have hlt : it.item.made < it.policy.tries := UInt32.lt_iff_toNat_lt.mp (UInt32.not_le.mp h)
      rw [decide_eq_false h, decide_eq_true hlt]
      rfl
  show (_ && _) = (_ && _)
  rw [htries]
  rfl

theorem swept_eq_none_iff : it.swept curTimePoint = none ↔ it.timedOut curTimePoint = true := by
  rw [timedOut_eq]
  by_cases hdue : it.isDue curTimePoint = true
  · by_cases htries : it.curTries ≥ it.sendOpt.tries
    · rw [swept_drop hdue htries, hdue, decide_eq_true htries]
      simp
    · rw [swept_try hdue htries, hdue, decide_eq_false htries]
      simp
  · have hidle := Bool.eq_false_of_not_eq_true hdue
    rw [swept_idle hidle, hidle]
    simp

/-- **The entries of the client are items.** -/
theorem retries : Retry.Retries item policy swept := by
  refine Retry.Retries.of_spent (fun _ _ => rfl) (fun _ => UInt32.le_iff_toNat_le) ?_ (fun _ _ => rfl)
  intro cur it htries
  exact congrArg (fun made => (⟨made, cur⟩ : Retry.Item TimePoint))
    (Counter.toNat_succ (UInt32.not_le.mp htries))

end SendingPacketInfo

/-! ### One sweep of the client -/

/-- The packet of this write. -/
def Effect.written? : Effect → Option SharedPacket
  | .asyncWrite packet _ => some packet
  | _ => none

theorem filterMap_callback?_of_mute {effects : List Effect} (h : ∀ e ∈ effects, e.isMute = true) :
    effects.filterMap Effect.callback? = [] ∧ effects.filterMap Effect.written? = [] := by
  refine ⟨List.filterMap_eq_nil_iff.mpr (fun e he => ?_),
    List.filterMap_eq_nil_iff.mpr (fun e he => ?_)⟩
  · have hmute := h e he
    cases e <;> first | rfl | exact Bool.noConfusion hmute
  · have hmute := h e he
    cases e <;> first | rfl | exact Bool.noConfusion hmute

namespace Ctx

/-- Is the client connected, and would `start` do nothing? -/
def IsUp (c : Ctx Io) : Prop := c.isConnected = true ∧ c.started = true

theorem isUp_userCall {c : Ctx Io} (h : c.IsUp) {call : UserCall} (hstop : call ≠ .stop) :
    (c.userCall call).IsUp := by
  cases call with
  | sendReqAsync cmd reqBuf reqLen opt callback =>
    rw [userCall, sendReqAsync]
    simp only
    split
    · exact h
    · exact h
  | sendCancel sendId => exact h
  | subscribeNotification cmd callback => exact h
  | unsubscribeNotification cmd => exact h
  | start host port =>
    rw [userCall, startImpl, h.2, if_pos rfl]
    exact h
  | stop => exact absurd rfl hstop

theorem isUp_calls {calls : List UserCall} (hstop : .stop ∉ calls) {c : Ctx Io} (h : c.IsUp) :
    (calls.foldl userCall c).IsUp := by
  induction calls generalizing c with
  | nil => exact h
  | cons call calls ih =>
    have hne : call ≠ .stop := fun heq => hstop (heq ▸ List.mem_cons_self)
    exact ih (fun hin => hstop (List.mem_cons_of_mem call hin)) (isUp_userCall h hne)

/-- A callback that does not call `stop` leaves the connection of a started client. -/
theorem isUp_runCallback {c : Ctx Io} (hcalm : c.Calm) (h : c.IsUp) : c.runCallback.IsUp := by
  rw [runCallback]
  split
  · exact h
  · rename_i run rest hscript
    have hstop : .stop ∉ run.calls := hcalm run (hscript ▸ List.mem_cons_self)
    exact isUp_calls (c := { c with script := rest }) hstop h

/-- What a sweep over `rest` did: to the list, in calls of the user, and in writes. -/
structure SweptOver (curTimePoint : TimePoint) (visited rest : List SendingPacketInfo)
    (c d : Ctx Io) : Prop where
  writePackets : d.writePackets = visited ++ rest.filterMap (SendingPacketInfo.swept curTimePoint)
  trace : ∃ effects, d.env.trace = c.env.trace ++ effects ∧
    effects.filterMap Effect.callback? =
      (rest.filter (SendingPacketInfo.timedOut curTimePoint)).map
        (fun it => (it, -1, it.packet.toSharedPacket)) ∧
    (effects.filterMap Effect.written?).Sublist
      ((rest.filter (SendingPacketInfo.isTried curTimePoint)).map (fun it => it.packet.toSharedPacket)) ∧
    (c.IsUp → effects.filterMap Effect.written? =
      (rest.filter (SendingPacketInfo.isTried curTimePoint)).map (fun it => it.packet.toSharedPacket))

theorem doWritePacket_up {c : Ctx Io} (h : c.isConnected = true) (packet : SharedPacket) :
    c.doWritePacket (some packet) = c.emit (.asyncWrite packet c.socketOpen) := by
  show (if c.isConnected = false then c else _) = _
  rw [h, if_neg (by decide)]

theorem doWritePacket_down {c : Ctx Io} (h : c.isConnected = false) (packet : Option SharedPacket) :
    c.doWritePacket packet = c := by
  cases packet with
  | none => rfl
  | some packet => exact if_pos h

namespace SweptOver

variable {curTimePoint : TimePoint} {visited rest : List SendingPacketInfo} {c d : Ctx Io}
  {it : SendingPacketInfo}

theorem nil (hw : c.writePackets = visited) : SweptOver curTimePoint visited [] c c := by
  refine ⟨?_, [], (List.append_nil _).symm, rfl, List.Sublist.refl _, fun _ => rfl⟩
  rw [hw, List.filterMap_nil, List.append_nil]

/-- The entry is not due. -/
theorem idle (hidle : it.isDue curTimePoint = false)
    (h : SweptOver curTimePoint (visited ++ [it]) rest c d) :
    SweptOver curTimePoint visited (it :: rest) c d := by
  obtain ⟨effects, htrace, hcalled, hwritten, hup⟩ := h.trace
  have hout : ¬ it.timedOut curTimePoint = true := by
    rw [SendingPacketInfo.timedOut_eq, hidle, Bool.false_and]
    decide
  have htried : ¬ it.isTried curTimePoint = true := by
    rw [SendingPacketInfo.isTried_eq, hidle, Bool.false_and]
    decide
  refine ⟨?_, effects, htrace, ?_, ?_, ?_⟩
  · rw [h.writePackets, List.filterMap_cons_some (SendingPacketInfo.swept_idle hidle),
      List.append_assoc, List.singleton_append]
  · rw [List.filter_cons_of_neg hout]
    exact hcalled
  · rw [List.filter_cons_of_neg htried]
    exact hwritten
  · rw [List.filter_cons_of_neg htried]
    exact hup

/-- The entry is dropped, after the user was told. -/
theorem drop {e : Ctx Io} (hdue : it.isDue curTimePoint = true)
    (htries : it.curTries ≥ it.sendOpt.tries) {effects : List Effect}
    (hmute : ∀ e ∈ effects, e.isMute = true)
    (htold : e.env.trace =
      c.env.trace ++ .sendReqCallback it (-1) it.packet.toSharedPacket :: effects)
    (hup : c.IsUp → e.IsUp) (h : SweptOver curTimePoint visited rest e d) :
    SweptOver curTimePoint visited (it :: rest) c d := by
  obtain ⟨later, htrace, hcalled, hwritten, hlater⟩ := h.trace
  obtain ⟨hnone, hnone'⟩ := filterMap_callback?_of_mute hmute
  have hout : it.timedOut curTimePoint = true := by
    rw [SendingPacketInfo.timedOut_eq, hdue, decide_eq_true htries]
    rfl
  have htried : ¬ it.isTried curTimePoint = true := by
    rw [SendingPacketInfo.isTried_eq, hdue, decide_eq_true htries]
    decide
  have hsplit : (Effect.sendReqCallback it (-1) it.packet.toSharedPacket :: effects ++ later).filterMap
      Effect.callback? = (it, -1, it.packet.toSharedPacket) :: later.filterMap Effect.callback? := by
    rw [List.filterMap_append, List.filterMap_cons_some (f := Effect.callback?) rfl, hnone]
    rfl
  have hwrites : (Effect.sendReqCallback it (-1) it.packet.toSharedPacket :: effects ++
      later).filterMap Effect.written? = later.filterMap Effect.written? := by
    rw [List.filterMap_append, List.filterMap_cons_none (f := Effect.written?) rfl, hnone']
    rfl
  refine ⟨?_, Effect.sendReqCallback it (-1) it.packet.toSharedPacket :: effects ++ later,
    ?_, ?_, ?_, ?_⟩
  · rw [h.writePackets, List.filterMap_cons_none (SendingPacketInfo.swept_drop hdue htries)]
  · rw [htrace, htold, List.append_assoc]
  · rw [hsplit, hcalled, List.filter_cons_of_pos hout, List.map_cons]
  · rw [hwrites, List.filter_cons_of_neg htried]
    exact hwritten
  · intro hconnected
    rw [hwrites, List.filter_cons_of_neg htried]
    exact hlater (hup hconnected)

/-- The entry is tried again. -/
theorem resend {e : Ctx Io} (hdue : it.isDue curTimePoint = true)
    (htries : ¬ it.curTries ≥ it.sendOpt.tries)
    (hw : e.env.trace = c.env.trace ∧ c.isConnected = false ∨
      e.env.trace = c.env.trace ++ [.asyncWrite it.packet.toSharedPacket c.socketOpen])
    (hup : c.IsUp → e.IsUp)
    (h : SweptOver curTimePoint (visited ++ [it.resent curTimePoint]) rest e d) :
    SweptOver curTimePoint visited (it :: rest) c d := by
  obtain ⟨later, htrace, hcalled, hwritten, hlater⟩ := h.trace
  have hout : ¬ it.timedOut curTimePoint = true := by
    rw [SendingPacketInfo.timedOut_eq, hdue, decide_eq_false htries]
    decide
  have htried : it.isTried curTimePoint = true := by
    rw [SendingPacketInfo.isTried_eq, hdue, decide_eq_false htries]
    rfl
  have hlist : d.writePackets =
      visited ++ (it :: rest).filterMap (SendingPacketInfo.swept curTimePoint) := by
    rw [h.writePackets, List.filterMap_cons_some (SendingPacketInfo.swept_try hdue htries),
      List.append_assoc, List.singleton_append]
  rcases hw with ⟨hsame, hdown⟩ | hwrote
  · refine ⟨hlist, later, ?_, ?_, ?_, ?_⟩
    · rw [htrace, hsame]
    · rw [List.filter_cons_of_neg hout]
      exact hcalled
    · rw [List.filter_cons_of_pos htried, List.map_cons]
      exact hwritten.cons _
    · intro hconnected
      have hno := hconnected.1
      rw [hdown] at hno
      cases hno
  · refine ⟨hlist, .asyncWrite it.packet.toSharedPacket c.socketOpen :: later, ?_, ?_, ?_, ?_⟩
    · rw [htrace, hwrote, List.append_assoc]
      rfl
    · rw [List.filterMap_cons_none (f := Effect.callback?) rfl, List.filter_cons_of_neg hout]
      exact hcalled
    · rw [List.filterMap_cons_some (f := Effect.written?) rfl, List.filter_cons_of_pos htried,
        List.map_cons]
      exact hwritten.cons_cons _
    · intro hconnected
      rw [List.filterMap_cons_some (f := Effect.written?) rfl, List.filter_cons_of_pos htried,
        List.map_cons, hlater (hup hconnected)]

end SweptOver

/-- **The sweep, from any place of the list**, when no callback calls `stop`. -/
theorem sweptOver_resendFrom (curTimePoint : TimePoint) (visited rest : List SendingPacketInfo)
    {c : Ctx Io} (hcalm : c.Calm) (hw : c.writePackets = visited ++ rest) :
    SweptOver curTimePoint visited rest c (resendFrom curTimePoint visited rest c) := by
  induction rest generalizing visited c with
  | nil =>
    rw [resendFrom]
    exact .nil (hw.trans (List.append_nil _))
  | cons it rest ih =>
    rw [resendFrom]
    by_cases hidle : secondsPassed curTimePoint it.lastSendTimePoint < it.sendOpt.intervalSeconds.toNat
    · rw [if_pos hidle]
      refine .idle ?_ (ih _ hcalm ?_)
      · rw [SendingPacketInfo.isDue, decide_eq_true hidle]
        rfl
      · rw [hw, List.append_assoc, List.singleton_append]
    have hdue : it.isDue curTimePoint = true := by
      rw [SendingPacketInfo.isDue, decide_eq_false hidle]
      rfl
    rw [if_neg hidle]
    by_cases htries : it.curTries ≥ it.sendOpt.tries
    · rw [if_pos htries]
      have hmark : (c.emit (.sendReqCallback it (-1) it.packet.toSharedPacket)).Calm := hcalm
      have hturns := turns_runCallback hmark
      obtain ⟨effects, htrace, hmute⟩ :=
        (mutes_runCallback (c.emit (.sendReqCallback it (-1) it.packet.toSharedPacket))).trace
      have hup : c.IsUp →
          (c.doSendReqCallback it (-1) it.packet.toSharedPacket).IsUp := isUp_runCallback hmark
      have hlist : (c.doSendReqCallback it (-1) it.packet.toSharedPacket).writePackets =
          visited ++ it :: rest := hturns.writePackets.trans hw
      have hcalm' : (c.doSendReqCallback it (-1) it.packet.toSharedPacket).Calm :=
        hcalm.of_suffix hturns.script
      have htold : (c.doSendReqCallback it (-1) it.packet.toSharedPacket).env.trace =
          c.env.trace ++ .sendReqCallback it (-1) it.packet.toSharedPacket :: effects := by
        refine htrace.trans ?_
        show (c.env.trace ++ [_]) ++ effects = _
        rw [List.append_assoc]
        rfl
      have hin : it ∈ (c.doSendReqCallback it (-1) it.packet.toSharedPacket).writePackets := by
        rw [hlist]
        exact List.mem_append_right _ List.mem_cons_self
      simp only
      rw [if_pos hin]
      -- the iterator survived the callback: the entry is erased
      have hlater := ih visited (c := { c.doSendReqCallback it (-1) it.packet.toSharedPacket with
        writePackets := visited ++ rest }) hcalm' rfl
      exact .drop (e := { c.doSendReqCallback it (-1) it.packet.toSharedPacket with
        writePackets := visited ++ rest }) hdue htries hmute htold hup hlater
    · rw [if_neg htries]
      have hset : visited ++ it.resent curTimePoint :: rest =
          (visited ++ [it.resent curTimePoint]) ++ rest := by
        rw [List.append_assoc, List.singleton_append]
      let tried : Ctx Io := { c with writePackets := visited ++ it.resent curTimePoint :: rest }
      show SweptOver _ _ _ _ (resendFrom _ (visited ++ [it.resent curTimePoint]) rest
        (tried.doWritePacket (some it.packet.toSharedPacket)))
      by_cases hconnected : c.isConnected = true
      · rw [doWritePacket_up (c := tried) hconnected]
        let written := tried.emit (.asyncWrite it.packet.toSharedPacket tried.socketOpen)
        exact .resend (e := written) hdue htries (.inr rfl) (fun h => h) (ih _ hcalm hset)
      · have hdown := Bool.eq_false_of_not_eq_true hconnected
        rw [doWritePacket_down (c := tried) hdown]
        exact .resend (e := tried) hdue htries (.inl ⟨rfl, hdown⟩) (fun h => h) (ih _ hcalm hset)

theorem sweptOver_doResenderCheck {c : Ctx Io} (hcalm : c.Calm) (curTimePoint : TimePoint) :
    SweptOver curTimePoint [] c.writePackets c (c.doResenderCheck curTimePoint) :=
  sweptOver_resendFrom curTimePoint [] c.writePackets hcalm rfl

/-- The client with that list, after a sweep of it. -/
def sweepOf (l : List SendingPacketInfo) (c : Ctx Io) : Ctx Io :=
  { c with writePackets := l }.doResenderCheck c.now

/-- The list after a series of sweeps, each of the client as it is by then. -/
def sweepAll (l : List SendingPacketInfo) (cs : List (Ctx Io)) : List SendingPacketInfo :=
  cs.foldl (fun l c => (sweepOf l c).writePackets) l

theorem sweepAll_eq (l : List SendingPacketInfo) {cs : List (Ctx Io)} (hcalm : ∀ c ∈ cs, c.Calm) :
    sweepAll l cs =
      (cs.map (fun c => c.now)).foldl (fun l cur => l.filterMap (SendingPacketInfo.swept cur)) l := by
  induction cs generalizing l with
  | nil => rfl
  | cons c cs ih =>
    have hfirst : (sweepOf l c).writePackets = l.filterMap (SendingPacketInfo.swept c.now) :=
      (sweptOver_doResenderCheck (c := { c with writePackets := l })
        (hcalm c List.mem_cons_self) c.now).writePackets
    show sweepAll (sweepOf l c).writePackets cs = _
    rw [ih _ (fun d hd => hcalm d (List.mem_cons_of_mem c hd)), hfirst]
    rfl

end Ctx

/-! ### An entry of the session -/

namespace Session

namespace SendingPacketInfo

/-- Have three seconds passed since the last try? -/
def isDue (curTimePoint : TimePoint) (it : SendingPacketInfo) : Bool :=
  !decide (secondsPassed curTimePoint it.lastSendTimePoint < resendIntervalInSeconds)

/-- The entry, tried again. -/
def resent (curTimePoint : TimePoint) (it : SendingPacketInfo) : SendingPacketInfo :=
  { it with curTries := it.curTries + 1, lastSendTimePoint := curTimePoint }

/-- What the sweep leaves of the entry. -/
def swept (curTimePoint : TimePoint) (it : SendingPacketInfo) : Option SendingPacketInfo :=
  if it.isDue curTimePoint = false then some it
  else if it.curTries ≥ maxResendTries then none
  else some (it.resent curTimePoint)

/-- What the sweep does for the entry, on a socket that is open or not. -/
def sweepEffects (curTimePoint : TimePoint) (isOpen : Bool) (it : SendingPacketInfo) : List Effect :=
  if it.isDue curTimePoint = false then []
  else if it.curTries ≥ maxResendTries then [.gaveUp it]
  else if isOpen then [.asyncWrite it.packet] else []

def item (it : SendingPacketInfo) : Retry.Item TimePoint := ⟨it.curTries.toNat, it.lastSendTimePoint⟩

/-- Three tries, three seconds apart. -/
def policy (_ : SendingPacketInfo) : Retry.Policy TimePoint where
  due last cur := !decide (secondsPassed cur last < resendIntervalInSeconds)
  tries := maxResendTries.toNat

/-- **The entries of the session are items.** -/
theorem retries : Retry.Retries item policy swept := by
  refine Retry.Retries.of_spent (fun _ _ => rfl) (fun _ => UInt32.le_iff_toNat_le) ?_ (fun _ _ => rfl)
  intro cur it htries
  exact congrArg (fun made => (⟨made, cur⟩ : Retry.Item TimePoint))
    (Counter.toNat_succ (UInt32.not_le.mp htries))

end SendingPacketInfo

/-! ### One sweep of the session -/

namespace Ctx

variable {E : Type} [Platform Effect E]

/-- **The sweep of the session**, from any place of the list. -/
theorem resendFrom_eq (curTimePoint : TimePoint) (visited rest : List SendingPacketInfo)
    {s : Ctx E} (hw : s.writePackets = visited ++ rest) :
    resendFrom curTimePoint visited rest s =
      { s with
        writePackets := visited ++ rest.filterMap (SendingPacketInfo.swept curTimePoint)
        env := (rest.flatMap (SendingPacketInfo.sweepEffects curTimePoint s.socketOpen)).foldl
          (fun env effect => Platform.perform effect env) s.env } := by
  induction rest generalizing visited s with
  | nil =>
    rw [resendFrom, List.filterMap_nil, ← hw]
    rfl
  | cons it rest ih =>
    rw [resendFrom]
    by_cases hidle : secondsPassed curTimePoint it.lastSendTimePoint < resendIntervalInSeconds
    · have hdue : it.isDue curTimePoint = false := by
        rw [SendingPacketInfo.isDue, decide_eq_true hidle]
        rfl
      have hswept : it.swept curTimePoint = some it := if_pos hdue
      have hnone : it.sweepEffects curTimePoint s.socketOpen = [] := if_pos hdue
      have hset : s.writePackets = (visited ++ [it]) ++ rest := by
        rw [hw, List.append_assoc, List.singleton_append]
      rw [if_pos hidle, ih _ hset, List.filterMap_cons_some hswept, List.flatMap_cons, hnone,
        List.append_assoc, List.singleton_append]
      rfl
    have hdue : it.isDue curTimePoint = true := by
      rw [SendingPacketInfo.isDue, decide_eq_false hidle]
      rfl
    rw [if_neg hidle]
    by_cases htries : it.curTries ≥ maxResendTries
    · have hswept : it.swept curTimePoint = none := by
        rw [SendingPacketInfo.swept, hdue, if_neg (by decide), if_pos htries]
      have hgone : it.sweepEffects curTimePoint s.socketOpen = [.gaveUp it] := by
        rw [SendingPacketInfo.sweepEffects, hdue, if_neg (by decide), if_pos htries]
      let dropped : Ctx E := { s with writePackets := visited ++ rest }.emit (.gaveUp it)
      rw [if_pos htries, ih visited (s := dropped) rfl, List.filterMap_cons_none hswept,
        List.flatMap_cons, hgone]
      rfl
    · have hswept : it.swept curTimePoint = some (it.resent curTimePoint) := by
        rw [SendingPacketInfo.swept, hdue, if_neg (by decide), if_neg htries]
      have hset : visited ++ it.resent curTimePoint :: rest =
          (visited ++ [it.resent curTimePoint]) ++ rest := by
        rw [List.append_assoc, List.singleton_append]
      rw [if_neg htries, List.filterMap_cons_some hswept, List.flatMap_cons]
      let tried : Ctx E := { s with writePackets := visited ++ it.resent curTimePoint :: rest }
      show resendFrom _ (visited ++ [it.resent curTimePoint]) rest (tried.doWritePacket it.packet) = _
      by_cases hopen : s.socketOpen = true
      · have hwrite : tried.doWritePacket it.packet = tried.emit (.asyncWrite it.packet) := by
          rw [doWritePacket, if_neg]
          show ¬ s.socketOpen = false
          rw [hopen]
          decide
        have heffects : it.sweepEffects curTimePoint s.socketOpen = [.asyncWrite it.packet] := by
          rw [SendingPacketInfo.sweepEffects, hdue, if_neg (by decide), if_neg htries, if_pos hopen]
        rw [hwrite, ih _ (s := tried.emit (.asyncWrite it.packet)) hset, heffects,
          List.append_assoc, List.singleton_append]
        rfl
      · have hclosed := Bool.eq_false_of_not_eq_true hopen
        have hwrite : tried.doWritePacket it.packet = tried := if_pos hclosed
        have heffects : it.sweepEffects curTimePoint s.socketOpen = [] := by
          rw [SendingPacketInfo.sweepEffects, hdue, if_neg (by decide), if_neg htries, if_neg hopen]
        rw [hwrite, ih _ (s := tried) hset, heffects, List.append_assoc, List.singleton_append]
        rfl

/-- What one sweep did: to the list, and outside. -/
structure SweptOver (curTimePoint : TimePoint) (s s' : Ctx E) : Prop where
  writePackets : s'.writePackets = s.writePackets.filterMap (SendingPacketInfo.swept curTimePoint)
  env : s'.env = (s.writePackets.flatMap
    (SendingPacketInfo.sweepEffects curTimePoint s.socketOpen)).foldl
      (fun env effect => Platform.perform effect env) s.env

theorem sweptOver_doResenderCheck (s : Ctx E) (curTimePoint : TimePoint) :
    SweptOver curTimePoint s (s.doResenderCheck curTimePoint) := by
  have heq := resendFrom_eq curTimePoint [] s.writePackets (s := s) rfl
  refine ⟨?_, ?_⟩
  · rw [doResenderCheck, heq]
    rfl
  · rw [doResenderCheck, heq]

/-- The session with that list, after a sweep of it. -/
def sweepOf (l : List SendingPacketInfo) (s : Ctx E) : Ctx E :=
  { s with writePackets := l }.doResenderCheck s.now

/-- The list after a series of sweeps, each of the session as it is by then. -/
def sweepAll (l : List SendingPacketInfo) (ss : List (Ctx E)) : List SendingPacketInfo :=
  ss.foldl (fun l s => (sweepOf l s).writePackets) l

theorem sweepAll_eq (l : List SendingPacketInfo) (ss : List (Ctx E)) :
    sweepAll l ss =
      (ss.map (fun s => s.now)).foldl (fun l cur => l.filterMap (SendingPacketInfo.swept cur)) l := by
  induction ss generalizing l with
  | nil => rfl
  | cons s ss ih =>
    have hfirst : (sweepOf l s).writePackets = l.filterMap (SendingPacketInfo.swept s.now) :=
      (sweptOver_doResenderCheck { s with writePackets := l } s.now).writePackets
    show sweepAll (sweepOf l s).writePackets ss = _
    rw [ih, hfirst]
    rfl

end Ctx

end Session

/-! ### Both of them -/

/-- A request is queued as tried once, at once. -/
theorem Ctx.queued_sendReqAsyncImpl (c : Ctx Io) (packet : RequestPacket) (sendDraw : Nat)
    (opt : SendOpt) (callback : Callback) :
    ∃ it, (c.sendReqAsyncImpl packet sendDraw opt callback).writePackets = c.writePackets ++ [it] ∧
      it.packet = packet ∧ it.sendOpt = opt ∧ it.item = ⟨1, c.now⟩ := by
  refine ⟨⟨packet, opt, sendDraw, callback, 1, c.now⟩, ?_, rfl, rfl, rfl⟩
  show (if c.isConnected = false then _ else _ : Ctx Io).writePackets = _
  split
  · rfl
  · rfl

/-- So is a packet that the session pushes. -/
theorem Session.Ctx.queued_sendPacket {E : Type} [Platform Session.Effect E] (s : Session.Ctx E)
    {packet : SharedPacket} (h : packet.isPush = true) :
    ∃ it, (s.sendPacket packet).writePackets = s.writePackets ++ [it] ∧
      it.packet = packet ∧ it.item = ⟨1, s.now⟩ := by
  refine ⟨⟨packet, 1, s.now⟩, ?_, rfl, rfl⟩
  rw [sendPacket, if_pos h, doWritePacket]
  split
  · rfl
  · rfl

/-- **An entry is queued as tried once, and every series of sweeps is fair to it**, on
both ends of a connection. -/
theorem sweeps_disciplined {E : Type} [Platform Session.Effect E] (l : List SendingPacketInfo)
    {cs : List (Ctx Io)} (hcalm : ∀ c ∈ cs, c.Calm) (m : List Session.SendingPacketInfo)
    (ss : List (Session.Ctx E)) :
    ((∀ (c : Ctx Io) packet sendDraw opt callback,
        ∃ it, (c.sendReqAsyncImpl packet sendDraw opt callback).writePackets =
          c.writePackets ++ [it] ∧ it.packet = packet ∧ it.sendOpt = opt ∧ it.item = ⟨1, c.now⟩) ∧
      Retry.Disciplined SendingPacketInfo.item SendingPacketInfo.policy SendingPacketInfo.swept
        (cs.map (fun c => c.now)) l (Ctx.sweepAll l cs) ∧
      (∀ cur (it : SendingPacketInfo), it.swept cur = none ↔ it.timedOut cur = true) ∧
      ∀ before c after, cs = before ++ c :: after →
        Ctx.SweptOver c.now [] (Ctx.sweepAll l before)
          { c with writePackets := Ctx.sweepAll l before }
          (Ctx.sweepOf (Ctx.sweepAll l before) c)) ∧
    Retry.Disciplined Session.SendingPacketInfo.item Session.SendingPacketInfo.policy
      Session.SendingPacketInfo.swept (ss.map (fun s => s.now)) m (Session.Ctx.sweepAll m ss) ∧
      (∀ (s : Session.Ctx E) packet, packet.isPush = true →
        ∃ it, (s.sendPacket packet).writePackets = s.writePackets ++ [it] ∧ it.packet = packet ∧
          it.item = ⟨1, s.now⟩) ∧
      ∀ before s after, ss = before ++ s :: after →
        Session.Ctx.SweptOver s.now { s with writePackets := Session.Ctx.sweepAll m before }
          (Session.Ctx.sweepOf (Session.Ctx.sweepAll m before) s) := by
  refine ⟨⟨Ctx.queued_sendReqAsyncImpl, ?_, fun _ _ => SendingPacketInfo.swept_eq_none_iff, ?_⟩, ?_,
    fun s packet hpush => s.queued_sendPacket hpush, ?_⟩
  · rw [Ctx.sweepAll_eq l hcalm]
    exact SendingPacketInfo.retries.disciplined _ l
  · intro before c after hsplit
    have hc : c.Calm := hcalm c (hsplit ▸ List.mem_append_right _ List.mem_cons_self)
    exact Ctx.sweptOver_doResenderCheck (c := { c with writePackets := Ctx.sweepAll l before }) hc
      c.now
  · rw [Session.Ctx.sweepAll_eq m ss]
    exact Session.SendingPacketInfo.retries.disciplined _ m
  · intro before s after _
    exact Session.Ctx.sweptOver_doResenderCheck _ s.now

/-- A request with two tries, one second apart, and one with three. -/
def twoTries : SendingPacketInfo := ⟨plainRequest, ⟨2, 1⟩, 1, 0, 1, 0⟩

def threeTries : SendingPacketInfo := ⟨plainRequest, ⟨3, 1⟩, 2, 0, 1, 0⟩

def twoSweeps : List (Ctx Io) :=
  [⟨Client.new, Io.new, seconds 1, []⟩, ⟨Client.new, Io.new, seconds 2, []⟩]

/-- A notification that has been sent twice, and one that has been sent once. -/
def sentTwice : Session.SendingPacketInfo := ⟨plainNotification, 2, 0⟩

def sentOnce : Session.SendingPacketInfo := ⟨plainNotification, 1, seconds 1⟩

def sessionSweeps : List (Session.Ctx Session.Writes) :=
  [{ Session.Ctx.idle 1 with now := seconds 3 }, { Session.Ctx.idle 1 with now := seconds 7 }]

/-- On each end the first of the two is dropped at the second sweep. -/
theorem sweeps_disciplined_twice :
    (∀ c ∈ twoSweeps, c.Calm) ∧
      Ctx.sweepAll [twoTries, threeTries] twoSweeps =
        [{ threeTries with curTries := 3, lastSendTimePoint := seconds 2 }] ∧
      Session.Ctx.sweepAll [sentTwice, sentOnce] sessionSweeps =
        [{ sentOnce with curTries := 2, lastSendTimePoint := seconds 7 }] := by
  have hcalm : ∀ c ∈ twoSweeps, c.Calm := by
    intro c hc run hrun
    rcases List.mem_cons.mp hc with rfl | hc
    · exact absurd hrun List.not_mem_nil
    · obtain rfl := List.mem_singleton.mp hc
      exact absurd hrun List.not_mem_nil
  refine ⟨hcalm, ?_⟩
  have h := sweeps_disciplined [twoTries, threeTries] hcalm [sentTwice, sentOnce] sessionSweeps
  refine ⟨h.1.2.1.result.trans ?_, h.2.1.result.trans ?_⟩
  · decide +kernel
  · decide +kernel

end Ibase
