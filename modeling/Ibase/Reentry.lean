import Ibase.Sweep

/-!
# Callbacks under the retry sweep

`do_resender_check` calls the user back while its iterator is on the entry it is about
to erase.  What the user may call from there is posted, except `start` and `stop`, and
`stop` on a client that is started clears `write_packets_` before it returns.  The
response path erases its entry first and is not touched by that.

`sweepFrom` is the sweep with a log of its visits: the calls of the user, the erasures
and the steps of the iterator, each with the list it found.  All of them find their
entry in the list if and only if no callback that the sweep makes stops the client.
-/

namespace Ibase

/-- What the sweep does at an entry; after the last two the iterator advances. -/
inductive Visit.Kind where
  | calledBack
  | erased
  | skipped
  | resent (connected : Bool)
  deriving DecidableEq

/-- The sweep at an entry, and the list by then. -/
structure Visit where
  kind : Visit.Kind
  entry : SendingPacketInfo
  writePackets : List SendingPacketInfo

/-- The entry is in the list. -/
def Visit.Valid (v : Visit) : Prop := v.entry ∈ v.writePackets

instance (v : Visit) : Decidable v.Valid := inferInstanceAs (Decidable (v.entry ∈ v.writePackets))

/-- Does this call stop the client? -/
def UserCall.stops (started : Bool) : UserCall → Bool
  | .stop => started
  | _ => false

/-- `started_` after a call that does not stop the client. -/
def UserCall.startedAfter (started : Bool) : UserCall → Bool
  | .start _ _ => true
  | _ => started

/-- Does one of these calls stop the client? -/
def stopsWith : Bool → List UserCall → Bool
  | _, [] => false
  | started, call :: calls => call.stops started || stopsWith (call.startedAfter started) calls

/-- `started_` after these calls, none of which stops the client. -/
def startedWith (started : Bool) (calls : List UserCall) : Bool :=
  calls.foldl UserCall.startedAfter started

theorem stopsWith_append {started : Bool} {calls : List UserCall} (later : List UserCall) :
    stopsWith started (calls ++ later) =
      (stopsWith started calls || stopsWith (startedWith started calls) later) := by
  induction calls generalizing started with
  | nil => rfl
  | cons call calls ih =>
    rw [List.cons_append, stopsWith, ih, stopsWith, Bool.or_assoc]
    rfl

namespace Ctx

/-! ### The list under a callback -/

/-- **A call stops the client and clears the list, or leaves the list alone.** -/
theorem userCall_cases (c : Ctx Io) (call : UserCall) :
    call.stops c.started = true ∧ (c.userCall call).writePackets = [] ∨
    call.stops c.started = false ∧ (c.userCall call).writePackets = c.writePackets ∧
      (c.userCall call).started = call.startedAfter c.started := by
  cases call with
  | sendReqAsync cmd reqBuf reqLen opt callback =>
    refine .inr ⟨rfl, ?_⟩
    rw [userCall, sendReqAsync]
    simp only
    split
    · exact ⟨rfl, rfl⟩
    · exact ⟨rfl, rfl⟩
  | sendCancel sendId => exact .inr ⟨rfl, rfl, rfl⟩
  | subscribeNotification cmd callback => exact .inr ⟨rfl, rfl, rfl⟩
  | unsubscribeNotification cmd => exact .inr ⟨rfl, rfl, rfl⟩
  | start host port =>
    refine .inr ⟨rfl, ?_⟩
    rw [userCall, startImpl]
    split
    · rename_i hstarted
      exact ⟨rfl, hstarted⟩
    · exact ⟨rfl, rfl⟩
  | stop =>
    by_cases hstarted : c.started = true
    · refine .inl ⟨hstarted, ?_⟩
      rw [userCall, hstarted, if_neg (by decide)]
      rfl
    · have hno := Bool.eq_false_of_not_eq_true hstarted
      refine .inr ⟨hno, ?_⟩
      rw [userCall, if_pos hno]
      exact ⟨rfl, rfl⟩

theorem calls_of_nil {c : Ctx Io} (h : c.writePackets = []) (calls : List UserCall) :
    (calls.foldl userCall c).writePackets = [] := by
  induction calls generalizing c with
  | nil => exact h
  | cons call calls ih =>
    rcases userCall_cases c call with ⟨-, hnil⟩ | ⟨-, hsame, -⟩
    · exact ih hnil
    · exact ih (hsame.trans h)

/-- The calls of one callback. -/
theorem calls_cases (c : Ctx Io) (calls : List UserCall) :
    stopsWith c.started calls = true ∧ (calls.foldl userCall c).writePackets = [] ∨
    stopsWith c.started calls = false ∧
      (calls.foldl userCall c).writePackets = c.writePackets ∧
      (calls.foldl userCall c).started = startedWith c.started calls := by
  induction calls generalizing c with
  | nil => exact .inr ⟨rfl, rfl, rfl⟩
  | cons call calls ih =>
    rcases userCall_cases c call with ⟨hstop, hnil⟩ | ⟨hgo, hlist, hstarted⟩
    · refine .inl ⟨?_, calls_of_nil hnil calls⟩
      rw [stopsWith, hstop, Bool.true_or]
    · rcases ih (c.userCall call) with ⟨hstop, hnil⟩ | ⟨hgo', hlist', hstarted'⟩
      · refine .inl ⟨?_, hnil⟩
        rw [stopsWith, hgo, ← hstarted, hstop]
        rfl
      · refine .inr ⟨?_, hlist'.trans hlist, ?_⟩
        · rw [stopsWith, hgo, ← hstarted, hgo']
          rfl
        · rw [List.foldl_cons, hstarted', hstarted]
          rfl

/-- The calls of the first callback to come. -/
def nextCalls (c : Ctx Io) : List UserCall :=
  match c.script with
  | [] => []
  | run :: _ => run.calls

theorem runCallback_cases (c : Ctx Io) :
    stopsWith c.started c.nextCalls = true ∧ c.runCallback.writePackets = [] ∨
    stopsWith c.started c.nextCalls = false ∧ c.runCallback.writePackets = c.writePackets ∧
      c.runCallback.started = startedWith c.started c.nextCalls := by
  rw [runCallback, nextCalls]
  cases c.script with
  | nil => exact .inr ⟨rfl, rfl, rfl⟩
  | cons run rest => exact calls_cases { c with script := rest } run.calls

theorem script_startImpl (c : Ctx Io) (host : String) (port : UInt16) :
    (c.startImpl host port).script = c.script := by
  unfold startImpl
  split
  · rfl
  · rfl

theorem script_stopImpl (c : Ctx Io) : c.stopImpl.script = c.script := by
  show (c.endConnection.writePackets.foldl (fun c info => c.emit (.dropped info))
    c.endConnection).script = c.script
  rw [(bookOf_foldl_dropped c.endConnection.writePackets c.endConnection [] []).2]
  exact script_doClose ({ c.stopTimer c.checkTimerId with checkTimerId := 0 }.emit
    (.stopImpl c.started c.connectState))

/-- A call uses up no callback. -/
theorem script_userCall (c : Ctx Io) (call : UserCall) : (c.userCall call).script = c.script := by
  cases call with
  | sendReqAsync cmd reqBuf reqLen opt callback =>
    rw [userCall, sendReqAsync]
    simp only
    split
    · rfl
    · rfl
  | sendCancel sendId => rfl
  | subscribeNotification cmd callback => rfl
  | unsubscribeNotification cmd => rfl
  | start host port => exact script_startImpl c host port
  | stop =>
    rw [userCall]
    split
    · rfl
    · exact script_stopImpl _

theorem script_runCallback (c : Ctx Io) : c.runCallback.script = c.script.tail := by
  have hcalls : ∀ (calls : List UserCall) (d : Ctx Io), (calls.foldl userCall d).script = d.script := by
    intro calls
    induction calls with
    | nil => exact fun d => rfl
    | cons call calls ih => exact fun d => (ih (d.userCall call)).trans (script_userCall d call)
  rw [runCallback]
  split
  · rename_i hnil
    rw [hnil]
    rfl
  · rename_i run rest hscript
    rw [hscript]
    exact hcalls run.calls { c with script := rest }

/-! ### The sweep and its visits -/

/-- `resendFrom`, with its visits. -/
def sweepFrom (curTimePoint : TimePoint) :
    List SendingPacketInfo → List SendingPacketInfo → Ctx Io → List Visit × Ctx Io
  | _, [], c => ([], c)
  | visited, it :: rest, c =>
    if secondsPassed curTimePoint it.lastSendTimePoint < it.sendOpt.intervalSeconds.toNat then
      let next := sweepFrom curTimePoint (visited ++ [it]) rest c
      (⟨.skipped, it, c.writePackets⟩ :: next.1, next.2)
    else if it.curTries ≥ it.sendOpt.tries then
      let called := c.doSendReqCallback it (-1) it.packet.toSharedPacket
      let next :=
        if it ∈ called.writePackets then
          sweepFrom curTimePoint visited rest { called with writePackets := visited ++ rest }
        else ([], called.emit .danglingIterator)
      (⟨.calledBack, it, c.writePackets⟩ :: ⟨.erased, it, called.writePackets⟩ :: next.1, next.2)
    else
      let sent := { it with curTries := it.curTries + 1, lastSendTimePoint := curTimePoint }
      let written := { c with writePackets := visited ++ sent :: rest }.doWritePacket
        (some it.packet.toSharedPacket)
      let next := sweepFrom curTimePoint (visited ++ [sent]) rest written
      (⟨.resent c.isConnected, sent, written.writePackets⟩ :: next.1, next.2)

/-- **It is the sweep.** -/
theorem sweepFrom_snd (curTimePoint : TimePoint) (visited rest : List SendingPacketInfo)
    (c : Ctx Io) : (sweepFrom curTimePoint visited rest c).2 = resendFrom curTimePoint visited rest c := by
  induction rest generalizing visited c with
  | nil => rfl
  | cons it rest ih =>
    rw [sweepFrom, resendFrom]
    split
    · exact ih _ c
    split
    · simp only
      split
      · exact ih visited _
      · rfl
    · exact ih _ _

/-- The visits of a sweep. -/
def visits (c : Ctx Io) (curTimePoint : TimePoint) : List Visit :=
  (sweepFrom curTimePoint [] c.writePackets c).1

/-- What the user calls from the callbacks of a sweep over `rest`. -/
def sweepCalls (curTimePoint : TimePoint) (rest : List SendingPacketInfo)
    (script : List CallbackRun) : List UserCall :=
  (script.take (rest.countP (SendingPacketInfo.timedOut curTimePoint))).flatMap (fun run => run.calls)

theorem sweepCalls_cons_pos {curTimePoint : TimePoint} {it : SendingPacketInfo}
    (h : it.timedOut curTimePoint = true) (rest : List SendingPacketInfo) (c : Ctx Io) :
    sweepCalls curTimePoint (it :: rest) c.script =
      c.nextCalls ++ sweepCalls curTimePoint rest c.script.tail := by
  rw [sweepCalls, List.countP_cons_of_pos h, nextCalls]
  cases c.script with
  | nil =>
    rw [List.take_nil, sweepCalls, List.tail_nil, List.take_nil]
    rfl
  | cons run script =>
    rw [List.take_succ_cons, List.flatMap_cons]
    rfl

theorem sweepCalls_cons_neg {curTimePoint : TimePoint} {it : SendingPacketInfo}
    (h : it.timedOut curTimePoint = false) (rest : List SendingPacketInfo)
    (script : List CallbackRun) :
    sweepCalls curTimePoint (it :: rest) script = sweepCalls curTimePoint rest script := by
  rw [sweepCalls, List.countP_cons_of_neg (by rw [h]; decide)]
  rfl

theorem doWritePacket_fields (c : Ctx Io) (packet : Option SharedPacket) :
    (c.doWritePacket packet).writePackets = c.writePackets ∧
      (c.doWritePacket packet).started = c.started ∧
      (c.doWritePacket packet).script = c.script := by
  cases packet with
  | none => exact ⟨rfl, rfl, rfl⟩
  | some packet =>
    rw [doWritePacket]
    split
    · exact ⟨rfl, rfl, rfl⟩
    · exact ⟨rfl, rfl, rfl⟩

/-- The list after the entry under the iterator was tried again. -/
theorem writePackets_resent (c : Ctx Io) (curTimePoint : TimePoint) (it : SendingPacketInfo)
    (visited rest : List SendingPacketInfo) :
    ({ c with writePackets := visited ++ it.resent curTimePoint :: rest }.doWritePacket
      (some it.packet.toSharedPacket)).writePackets =
      (visited ++ [it.resent curTimePoint]) ++ rest := by
  rw [(doWritePacket_fields _ _).1, List.append_assoc, List.singleton_append]

/-- **Every visit finds its entry exactly if no callback of the sweep stops the
client**, from any place of the list. -/
theorem visits_valid_from (curTimePoint : TimePoint) (visited rest : List SendingPacketInfo)
    {c : Ctx Io} (hw : c.writePackets = visited ++ rest) :
    (∀ v ∈ (sweepFrom curTimePoint visited rest c).1, v.Valid) ↔
      stopsWith c.started (sweepCalls curTimePoint rest c.script) = false := by
  induction rest generalizing visited c with
  | nil =>
    have hnone : sweepCalls curTimePoint [] c.script = [] := by
      rw [sweepCalls, List.countP_nil, List.take_zero, List.flatMap_nil]
    rw [hnone]
    exact ⟨fun _ => rfl, fun _ v hv => absurd hv List.not_mem_nil⟩
  | cons it rest ih =>
    have hin : it ∈ c.writePackets := hw ▸ List.mem_append_right _ List.mem_cons_self
    rw [sweepFrom]
    by_cases hidle : secondsPassed curTimePoint it.lastSendTimePoint < it.sendOpt.intervalSeconds.toNat
    · have hkeep := SendingPacketInfo.timedOut_early hidle
      have hset : c.writePackets = (visited ++ [it]) ++ rest := by
        rw [hw, List.append_assoc, List.singleton_append]
      rw [if_pos hidle, sweepCalls_cons_neg hkeep, ← ih _ hset, List.forall_mem_cons]
      exact and_iff_right hin
    rw [if_neg hidle]
    by_cases htries : it.curTries ≥ it.sendOpt.tries
    · have hgone := SendingPacketInfo.timedOut_spent hidle htries
      rw [if_pos htries, sweepCalls_cons_pos hgone, stopsWith_append, List.forall_mem_cons,
        List.forall_mem_cons]
      refine (and_iff_right hin).trans ?_
      let marked := c.emit (.sendReqCallback it (-1) it.packet.toSharedPacket)
      rcases runCallback_cases marked with ⟨hstop, hnil⟩ | ⟨hgo, hlist, hstarted⟩
      · -- the list is empty when the sweep erases the entry
        have hlost : it ∉ marked.runCallback.writePackets := by
          rw [hnil]
          exact List.not_mem_nil
        have hstop' : stopsWith c.started c.nextCalls = true := hstop
        rw [hstop', Bool.true_or]
        exact ⟨fun h => absurd h.1 hlost, fun h => by cases h⟩
      · have hhere : it ∈ marked.runCallback.writePackets := by
          rw [hlist]
          exact hin
        have hgo' : stopsWith c.started c.nextCalls = false := hgo
        let next : Ctx Io := { marked.runCallback with writePackets := visited ++ rest }
        have hscript : next.script = c.script.tail := script_runCallback marked
        have hstarted' : next.started = startedWith c.started c.nextCalls := hstarted
        have hnext := ih visited (c := next) rfl
        rw [hstarted', hscript] at hnext
        rw [hgo', Bool.false_or, ← hnext]
        refine (and_iff_right hhere).trans ?_
        show (∀ v ∈ (if it ∈ marked.runCallback.writePackets then _ else _ : List Visit × Ctx Io).1,
          v.Valid) ↔ _
        rw [if_pos hhere]
        exact Iff.rfl
    · have hkeep : it.timedOut curTimePoint = false := SendingPacketInfo.timedOut_unspent htries
      let tried : Ctx Io := { c with writePackets := visited ++ it.resent curTimePoint :: rest }
      obtain ⟨hlist, hstarted, hscript⟩ :=
        doWritePacket_fields tried (some it.packet.toSharedPacket)
      have hnext := ih _ (writePackets_resent c curTimePoint it visited rest)
      rw [hstarted, hscript] at hnext
      rw [if_neg htries, sweepCalls_cons_neg hkeep, List.forall_mem_cons]
      refine (and_iff_right ?_).trans hnext
      show it.resent curTimePoint ∈ (tried.doWritePacket (some it.packet.toSharedPacket)).writePackets
      rw [hlist]
      exact List.mem_append_right _ List.mem_cons_self

/-- **A sweep, in any state and with any callbacks, finds its entries exactly if none of
its callbacks stops the client.** -/
theorem visits_valid_iff (c : Ctx Io) (curTimePoint : TimePoint) :
    (sweepFrom curTimePoint [] c.writePackets c).2 = c.doResenderCheck curTimePoint ∧
    ((∀ v ∈ c.visits curTimePoint, v.Valid) ↔
      stopsWith c.started (sweepCalls curTimePoint c.writePackets c.script) = false) :=
  ⟨sweepFrom_snd curTimePoint [] c.writePackets c, visits_valid_from curTimePoint [] _ rfl⟩

end Ctx

namespace World

/-- A request with one try is sent at once, and its time is up. -/
def requestExpires : List Event :=
  [.start "host" 1, .run [], .connected, .run [], .run [],
    .sendDrawSeq 5 none 0 (some ⟨1, 1⟩) 0, .sendDrawId 0, .sendPost 0, .run [],
    .advance (seconds 1), .expired 0]

/-- A callback that calls `stop`. -/
def stopping : List CallbackRun := [⟨[.stop], 0⟩]

/-- **Its callback stops the client, and the sweep goes on from an iterator that points
nowhere.** -/
theorem iterator_dangles :
    ∃ w w', Run.run step new requestExpires = some w ∧ w.step (.run stopping) = some w' ∧
      ¬ (∀ v ∈ (w.enter stopping).visits w.now, v.Valid) ∧ .danglingIterator ∈ w'.io.trace := by
  have hrun : (Run.run step new requestExpires).map (fun w =>
      (((w.enter stopping).visits w.now).all (fun v => decide v.Valid),
        (w.step (.run stopping)).map (fun w' => decide (.danglingIterator ∈ w'.io.trace)))) =
      some (false, some true) := by
    decide +kernel
  obtain ⟨w, hw, heq⟩ := Option.map_eq_some_iff.mp hrun
  obtain ⟨hvisits, hstep⟩ := Prod.mk.inj heq
  obtain ⟨w', hw', hdangling⟩ := Option.map_eq_some_iff.mp hstep
  refine ⟨w, w', hw, hw', fun hall => ?_, of_decide_eq_true hdangling⟩
  have hvalid : ((w.enter stopping).visits w.now).all (fun v => decide v.Valid) = true :=
    List.all_eq_true.mpr (fun v hv => decide_eq_true (hall v hv))
  rw [hvalid] at hvisits
  cases hvisits

end World

end Ibase
