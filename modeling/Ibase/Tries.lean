import Ibase.Reentry

/-!
# What `cur_tries_` counts

`send_req_async_impl` and the sweep hand a request to `do_write_packet` and count a try.
Whether the frame goes to `async_write` is decided in there: a client that is not
connected returns and says nothing.  An `Attempt` is such a call with what it found, and
`World.Tallies` says that the attempts so far agree with the world.

`cur_tries_` is the number of the attempts for an entry, in every state that can be
reached, and the frames on the wire are the attempts that found the client connected.  A
request that is submitted before `start` is tried once and sent never
(`World.tried_unsent`).
-/

namespace Ibase

/-- A call of `do_write_packet` for a request. -/
structure Attempt where
  packet : SharedPacket
  connected : Bool
  deriving DecidableEq

namespace Attempt

def isFor (packet : SharedPacket) (a : Attempt) : Bool := decide (a.packet = packet)

/-- Was that packet handed to `async_write`? -/
def isSent (packet : SharedPacket) (a : Attempt) : Bool := a.isFor packet && a.connected

/-- What the attempt does. -/
def effects (a : Attempt) (isOpen : Bool) : List Effect :=
  if a.connected then [.asyncWrite a.packet isOpen] else []

theorem countP_isSent_le (attempts : List Attempt) (packet : SharedPacket) :
    attempts.countP (isSent packet) ≤ attempts.countP (isFor packet) := by
  refine List.countP_mono_left (fun a _ hsent => ?_)
  rw [isSent, Bool.and_eq_true] at hsent
  exact hsent.1

/-- Every attempt was sent exactly if each found the client connected. -/
theorem countP_isSent_eq_iff (attempts : List Attempt) (packet : SharedPacket) :
    attempts.countP (isSent packet) = attempts.countP (isFor packet) ↔
      ∀ a ∈ attempts, a.packet = packet → a.connected = true := by
  induction attempts with
  | nil => exact ⟨fun _ a ha => absurd ha List.not_mem_nil, fun _ => rfl⟩
  | cons a attempts ih =>
    rw [List.forall_mem_cons, ← ih]
    have hle := countP_isSent_le attempts packet
    by_cases hfor : a.packet = packet
    · have hisFor : a.isFor packet = true := decide_eq_true hfor
      rw [List.countP_cons_of_pos hisFor]
      by_cases hconnected : a.connected = true
      · have hsent : a.isSent packet = true := by rw [isSent, hisFor, hconnected]; rfl
        rw [List.countP_cons_of_pos hsent]
        exact ⟨fun h => ⟨fun _ => hconnected, Nat.succ.inj h⟩, fun h => congrArg (· + 1) h.2⟩
      · have hsent : ¬ a.isSent packet = true := by
          rw [isSent, Bool.and_eq_true]
          exact fun h => hconnected h.2
        rw [List.countP_cons_of_neg hsent]
        refine ⟨fun h => ?_, fun h => absurd (h.1 hfor) hconnected⟩
        omega
    · have hisFor : ¬ a.isFor packet = true := fun h => hfor (of_decide_eq_true h)
      have hsent : ¬ a.isSent packet = true := by
        rw [isSent, Bool.and_eq_true]
        exact fun h => hisFor h.1
      rw [List.countP_cons_of_neg hisFor, List.countP_cons_of_neg hsent]
      exact ⟨fun h => ⟨fun heq => absurd heq hfor, h⟩, fun h => h.2⟩

end Attempt

/-- How often the packet was handed to `async_write`. -/
def transmissions (trace : List Effect) (packet : SharedPacket) : Nat :=
  (trace.filterMap Effect.written?).count packet

def SendingPacketInfo.seqDraw (it : SendingPacketInfo) : Nat := it.packet.origin.draw

/-- Is this neither a request on the wire nor the end of a request that failed? -/
def Effect.isUncounted : Effect → Bool
  | .asyncWrite packet _ =>
    match packet.origin with
    | .request .. => false
    | _ => true
  | .sendReqCallback _ result _ => result != -1
  | _ => true

theorem Effect.isUncounted_of_isIdle {e : Effect} (h : e.isIdle = true) : e.isUncounted = true := by
  cases e with
  | asyncWrite packet isOpen =>
    rw [isIdle] at h
    rw [isUncounted]
    cases horigin : packet.origin with
    | request draw cmd =>
      rw [horigin] at h
      cases h
    | _ => rfl
  | sendReqCallback info result packet =>
    have hzero : result = 0 := eq_of_beq h
    rw [isUncounted, hzero]
    rfl
  | _ => rfl

/-- The draws that wait and those of the entries are all different, what has been tried
waits no more, and every count is right. -/
structure Tallied (waiting : List Nat) (attempts : List Attempt) (queue : List SendingPacketInfo)
    (curSeq : Nat) (trace : List Effect) : Prop where
  drawn : Counter.Drawn curSeq (waiting ++ queue.map SendingPacketInfo.seqDraw)
  past : ∀ a ∈ attempts, a.packet.origin.draw ≤ curSeq ∧ a.packet.origin.draw ∉ waiting
  tries : ∀ it ∈ queue, 1 ≤ it.curTries.toNat ∧
    it.curTries.toNat = attempts.countP (Attempt.isFor it.packet.toSharedPacket)
  sent : ∀ packet : RequestPacket, transmissions trace packet.toSharedPacket =
    attempts.countP (Attempt.isSent packet.toSharedPacket)
  failed : ∀ it packet, .sendReqCallback it (-1) packet ∈ trace →
    max it.sendOpt.tries.toNat 1 ≤ attempts.countP (Attempt.isFor it.packet.toSharedPacket)

namespace Tallied

variable {waiting waiting' draws : List Nat} {attempts : List Attempt}
  {queue queue' visited rest : List SendingPacketInfo} {it : SendingPacketInfo} {curSeq curSeq' : Nat}
  {trace effects : List Effect} {packet : RequestPacket}

theorem transmissions_append (trace effects : List Effect) (packet : SharedPacket) :
    transmissions (trace ++ effects) packet =
      transmissions trace packet + transmissions effects packet := by
  rw [transmissions, List.filterMap_append, List.count_append]
  rfl

theorem transmissions_uncounted (h : ∀ e ∈ effects, e.isUncounted = true) (packet : RequestPacket) :
    transmissions effects packet.toSharedPacket = 0 := by
  refine List.count_eq_zero.mpr (fun hin => ?_)
  obtain ⟨e, he, hwritten⟩ := List.mem_filterMap.mp hin
  have hquiet := h e he
  cases e with
  | asyncWrite written isOpen =>
    obtain rfl := Option.some.inj hwritten
    obtain ⟨draw, cmd, horigin⟩ := packet.isRequest
    rw [Effect.isUncounted, horigin] at hquiet
    cases hquiet
  | _ => cases hwritten

/-- **What neither tries nor fails a request keeps the tally.** -/
theorem mono (h : Tallied waiting attempts queue curSeq trace) (hqueue : queue'.Sublist queue)
    (hseq : curSeq ≤ curSeq') (hwaiting : waiting'.Perm (waiting ++ draws)) (hnodup : draws.Nodup)
    (hfresh : ∀ n ∈ draws, curSeq < n ∧ n ≤ curSeq') (hquiet : ∀ e ∈ effects, e.isUncounted = true) :
    Tallied waiting' attempts queue' curSeq' (trace ++ effects) := by
  have hsub := hqueue.map SendingPacketInfo.seqDraw
  have hperm : (waiting' ++ queue'.map SendingPacketInfo.seqDraw).Perm
      ((waiting ++ queue'.map SendingPacketInfo.seqDraw) ++ draws) := by
    refine (hwaiting.append_right _).trans ?_
    rw [List.append_assoc, List.append_assoc]
    exact List.perm_append_comm.append_left waiting
  have hdrawn := (h.drawn.sublist (hsub.append_left waiting)).append hseq hnodup hfresh
  refine ⟨hdrawn.perm hperm, ?_, fun it hin => h.tries it (hqueue.subset hin), ?_, ?_⟩
  · intro a ha
    obtain ⟨hle, hnot⟩ := h.past a ha
    refine ⟨Nat.le_trans hle hseq, fun hin => ?_⟩
    rcases List.mem_append.mp (hwaiting.subset hin) with hin | hin
    · exact hnot hin
    · exact absurd (hfresh _ hin).1 (Nat.not_lt_of_le hle)
  · intro packet
    rw [transmissions_append, transmissions_uncounted hquiet, Nat.add_zero]
    exact h.sent packet
  · intro it packet hin
    rcases List.mem_append.mp hin with hin | hin
    · exact h.failed it packet hin
    · exact absurd (hquiet _ hin) (by rw [Effect.isUncounted]; decide)

theorem countP_isFor_concat (attempts : List Attempt) (a : Attempt) (packet : SharedPacket) :
    (attempts ++ [a]).countP (Attempt.isFor packet) =
      attempts.countP (Attempt.isFor packet) + if a.packet = packet then 1 else 0 := by
  rw [List.countP_append, List.countP_singleton, Attempt.isFor]
  by_cases h : a.packet = packet
  · rw [decide_eq_true h, if_pos rfl, if_pos h]
  · rw [decide_eq_false h, if_neg h]
    rfl

/-- An attempt is counted on both sides. -/
theorem sent_concat (h : Tallied waiting attempts queue curSeq trace) (a : Attempt) (isOpen : Bool)
    (packet : RequestPacket) :
    transmissions (trace ++ a.effects isOpen) packet.toSharedPacket =
      (attempts ++ [a]).countP (Attempt.isSent packet.toSharedPacket) := by
  rw [transmissions_append, h.sent packet, List.countP_append, List.countP_singleton, Attempt.isSent,
    Attempt.effects]
  congr 1
  cases hconnected : a.connected with
  | false =>
    rw [Bool.and_false]
    rfl
  | true =>
    rw [Bool.and_true, if_pos rfl, Attempt.isFor]
    show List.count _ [a.packet] = _
    rw [List.count_singleton]
    by_cases heq : a.packet = packet.toSharedPacket
    · rw [decide_eq_true heq, heq]
      simp
    · rw [decide_eq_false heq]
      simp [heq]

theorem failed_concat (h : Tallied waiting attempts queue curSeq trace) (a : Attempt) (isOpen : Bool)
    {it : SendingPacketInfo} {packet : SharedPacket}
    (hin : .sendReqCallback it (-1) packet ∈ trace ++ a.effects isOpen) :
    max it.sendOpt.tries.toNat 1 ≤ (attempts ++ [a]).countP (Attempt.isFor it.packet.toSharedPacket) := by
  have hold : .sendReqCallback it (-1) packet ∈ trace := by
    rcases List.mem_append.mp hin with hin | hin
    · exact hin
    · rw [Attempt.effects] at hin
      split at hin
      · cases List.mem_singleton.mp hin
      · exact absurd hin List.not_mem_nil
  rw [List.countP_append]
  exact Nat.le_trans (h.failed it packet hold) (Nat.le_add_right _ _)

theorem enqueue (h : Tallied waiting attempts queue curSeq trace)
    (hwaiting : waiting.Perm (it.seqDraw :: waiting')) (hone : it.curTries = 1)
    (connected isOpen : Bool) :
    Tallied waiting' (attempts ++ [⟨it.packet.toSharedPacket, connected⟩]) (queue ++ [it]) curSeq
      (trace ++ Attempt.effects ⟨it.packet.toSharedPacket, connected⟩ isOpen) := by
  have hwait : it.seqDraw ∈ waiting := hwaiting.symm.subset List.mem_cons_self
  have hperm : (waiting' ++ (queue ++ [it]).map SendingPacketInfo.seqDraw).Perm
      (waiting ++ queue.map SendingPacketInfo.seqDraw) := by
    rw [List.map_append, ← List.append_assoc]
    refine List.perm_append_comm.trans ?_
    show (it.seqDraw :: (waiting' ++ _)).Perm _
    rw [← List.cons_append]
    exact hwaiting.symm.append_right _
  have hnever : attempts.countP (Attempt.isFor it.packet.toSharedPacket) = 0 := by
    refine List.countP_eq_zero.mpr (fun a ha hfor => ?_)
    have hsame : a.packet.origin.draw = it.seqDraw :=
      congrArg (fun p => p.origin.draw) (of_decide_eq_true hfor)
    exact (h.past a ha).2 (hsame ▸ hwait)
  have hout : it.seqDraw ∉ waiting' := by
    have hnodup := hwaiting.nodup_iff.mp (List.nodup_append.mp h.drawn.nodup).1
    exact (List.nodup_cons.mp hnodup).1
  refine ⟨h.drawn.perm hperm, ?_, ?_,
    fun packet => h.sent_concat _ isOpen packet, fun it packet hin => h.failed_concat _ isOpen hin⟩
  · intro a ha
    rcases List.mem_append.mp ha with ha | ha
    · obtain ⟨hle, hnot⟩ := h.past a ha
      exact ⟨hle, fun hin => hnot (hwaiting.symm.subset (List.mem_cons_of_mem _ hin))⟩
    · rw [List.mem_singleton.mp ha]
      exact ⟨h.drawn.le _ (List.mem_append_left _ hwait), hout⟩
  · intro it' hin
    rw [countP_isFor_concat]
    rcases List.mem_append.mp hin with hin | hin
    · have hne : ¬ it.packet.toSharedPacket = it'.packet.toSharedPacket := by
        intro heq
        exact (List.nodup_append.mp h.drawn.nodup).2.2 _ hwait _
          (List.mem_map_of_mem (f := SendingPacketInfo.seqDraw) hin)
          (congrArg (fun p => p.origin.draw) heq)
      rw [if_neg hne, Nat.add_zero]
      exact h.tries it' hin
    · rw [List.mem_singleton.mp hin, if_pos rfl, hnever, hone]
      exact ⟨Nat.le_refl 1, rfl⟩

theorem resend (h : Tallied waiting attempts (visited ++ it :: rest) curSeq trace)
    (htries : ¬ it.curTries ≥ it.sendOpt.tries) (curTimePoint : TimePoint) (connected isOpen : Bool) :
    Tallied waiting (attempts ++ [⟨it.packet.toSharedPacket, connected⟩])
      (visited ++ it.resent curTimePoint :: rest) curSeq
      (trace ++ Attempt.effects ⟨it.packet.toSharedPacket, connected⟩ isOpen) := by
  have hmap : (visited ++ it.resent curTimePoint :: rest).map SendingPacketInfo.seqDraw =
      (visited ++ it :: rest).map SendingPacketInfo.seqDraw := by
    rw [List.map_append, List.map_append, List.map_cons, List.map_cons]
    rfl
  have hit : it ∈ visited ++ it :: rest := List.mem_append_right _ List.mem_cons_self
  have hdraw : it.seqDraw ∈ (visited ++ it :: rest).map SendingPacketInfo.seqDraw :=
    List.mem_map_of_mem hit
  have hdistinct := (List.nodup_append.mp h.drawn.nodup).2.1
  rw [List.map_append, List.map_cons] at hdistinct
  refine ⟨hmap ▸ h.drawn, ?_, ?_, fun packet => h.sent_concat _ isOpen packet,
    fun it packet hin => h.failed_concat _ isOpen hin⟩
  · intro a ha
    rcases List.mem_append.mp ha with ha | ha
    · exact h.past a ha
    · rw [List.mem_singleton.mp ha]
      refine ⟨h.drawn.le _ (List.mem_append_right _ hdraw), fun hin => ?_⟩
      exact (List.nodup_append.mp h.drawn.nodup).2.2 _ hin _ hdraw rfl
  · intro it' hin
    rw [countP_isFor_concat]
    have hother : it'.seqDraw ≠ it.seqDraw → it' ∈ visited ++ it :: rest → 1 ≤ it'.curTries.toNat ∧
        it'.curTries.toNat = attempts.countP (Attempt.isFor it'.packet.toSharedPacket) +
          if it.packet.toSharedPacket = it'.packet.toSharedPacket then 1 else 0 := by
      intro hne hin
      rw [if_neg (fun heq => hne (congrArg (fun p => p.origin.draw) heq.symm)), Nat.add_zero]
      exact h.tries it' hin
    rcases List.mem_append.mp hin with hin | hin
    · refine hother (fun heq => ?_) (List.mem_append_left _ hin)
      exact (List.nodup_append.mp hdistinct).2.2 _ (List.mem_map_of_mem hin) _ List.mem_cons_self heq
    rcases List.mem_cons.mp hin with rfl | hin
    · obtain ⟨hpos, hcount⟩ := h.tries it hit
      have hsucc := Counter.toNat_succ (UInt32.not_le.mp htries)
      rw [show (it.resent curTimePoint).packet = it.packet from rfl, if_pos rfl, ← hcount]
      exact ⟨by rw [SendingPacketInfo.resent, hsucc]; omega, hsucc⟩
    · refine hother (fun heq => ?_) (List.mem_append_right _ (List.mem_cons_of_mem it hin))
      have htail := (List.nodup_append.mp hdistinct).2.1
      exact (List.nodup_cons.mp htail).1 (heq ▸ List.mem_map_of_mem hin)

/-- An entry is given up, and its callback told. -/
theorem giveUp (h : Tallied waiting attempts queue curSeq trace) (hin : it ∈ queue)
    (htries : it.curTries ≥ it.sendOpt.tries) (packet : SharedPacket) :
    Tallied waiting attempts queue curSeq (trace ++ [.sendReqCallback it (-1) packet]) := by
  refine ⟨h.drawn, h.past, h.tries, ?_, ?_⟩
  · intro packet'
    rw [transmissions_append]
    exact h.sent packet'
  · intro it' packet' hmem
    rcases List.mem_append.mp hmem with hmem | hmem
    · exact h.failed it' packet' hmem
    · obtain ⟨rfl, -, -⟩ := Effect.sendReqCallback.inj (List.mem_singleton.mp hmem)
      obtain ⟨hpos, hcount⟩ := h.tries it' hin
      rw [← hcount]
      exact Nat.max_le.mpr ⟨UInt32.le_iff_toNat_le.mp htries, hpos⟩

end Tallied

/-! ### The client -/

/-- The attempt of this visit. -/
def Visit.attempt? (v : Visit) : Option Attempt :=
  match v.kind with
  | .resent connected => some ⟨v.entry.packet.toSharedPacket, connected⟩
  | _ => none

namespace Ctx

/-- The tally is right inside a handler; `calls` are the draws of the other threads. -/
def Tallies (calls : List Nat) (attempts : List Attempt) (c : Ctx Io) : Prop :=
  Tallied (calls ++ c.env.postedDraws) attempts c.writePackets c.curSeq c.env.trace

variable {c d : Ctx Io} {calls : List Nat} {attempts : List Attempt}

theorem Tallies.goes {P : Effect → Bool} (hP : ∀ e, P e = true → e.isUncounted = true)
    (h : c.Tallies calls attempts) (hg : c.Goes P d) : d.Tallies calls attempts := by
  obtain ⟨draws, hposted, hnodup, hfresh⟩ := hg.posted
  obtain ⟨effects, htrace, hquiet⟩ := hg.trace
  rw [Tallies, htrace]
  refine h.mono hg.queue hg.curSeq ?_ hnodup hfresh (fun e he => hP e (hquiet e he))
  rw [hposted, List.append_assoc]

theorem Tallies.idles (h : c.Tallies calls attempts) (hg : c.Idles d) : d.Tallies calls attempts :=
  h.goes (fun _ => Effect.isUncounted_of_isIdle) hg

/-- `do_write_packet`, as an attempt. -/
theorem doWritePacket_attempt (c : Ctx Io) (packet : SharedPacket) :
    (c.doWritePacket (some packet)).env.trace =
      c.env.trace ++ Attempt.effects ⟨packet, c.isConnected⟩ c.socketOpen ∧
    (c.doWritePacket (some packet)).env.postedDraws = c.env.postedDraws ∧
    (c.doWritePacket (some packet)).curSeq = c.curSeq := by
  by_cases h : c.isConnected = true
  · rw [doWritePacket_up h, Attempt.effects, if_pos h]
    refine ⟨rfl, ?_, rfl⟩
    exact (Io.postedDraws_perform c.env (.asyncWrite packet c.socketOpen)).trans (List.append_nil _)
  · have hdown := Bool.eq_false_of_not_eq_true h
    rw [doWritePacket_down hdown, Attempt.effects, if_neg h, List.append_nil]
    exact ⟨rfl, rfl, rfl⟩

theorem goes_doHeartbeatCheck (c : Ctx Io) (curTimePoint : TimePoint) :
    c.Goes Effect.isUncounted (c.doHeartbeatCheck curTimePoint) := by
  rw [doHeartbeatCheck]
  split
  · exact .refl c
  split
  · exact .refl c
  have hdraw : c.Goes Effect.isUncounted { c with curSeq := c.curSeq + 1 } :=
    .of_env (List.Sublist.refl _) (.inl rfl) (Nat.le_refl _) (Nat.le_succ _) rfl
  simp only
  cases hpacket : SharedPacket.build (.heartbeat (c.curSeq + 1)) none 0 with
  | none => exact hdraw
  | some packet =>
    rw [doWritePacket]
    split
    · exact hdraw
    · refine hdraw.emit ?_ rfl
      rw [Effect.isUncounted, SharedPacket.origin_build hpacket]

/-- **The sweep keeps the tally**, from any place of the list. -/
theorem tallies_sweepFrom (curTimePoint : TimePoint) (visited rest : List SendingPacketInfo)
    {c : Ctx Io} {attempts : List Attempt} (hw : c.writePackets = visited ++ rest)
    (h : c.Tallies calls attempts) :
    (sweepFrom curTimePoint visited rest c).2.Tallies calls
      (attempts ++ (sweepFrom curTimePoint visited rest c).1.filterMap Visit.attempt?) := by
  induction rest generalizing visited c attempts with
  | nil =>
    rw [sweepFrom, List.filterMap_nil, List.append_nil]
    exact h
  | cons it rest ih =>
    rw [sweepFrom]
    split
    · rw [List.filterMap_cons_none rfl]
      refine ih _ ?_ h
      rw [hw, List.append_assoc, List.singleton_append]
    split
    · rename_i htries
      rw [List.filterMap_cons_none rfl, List.filterMap_cons_none rfl]
      let marked := c.emit (.sendReqCallback it (-1) it.packet.toSharedPacket)
      have hin : it ∈ c.writePackets := hw ▸ List.mem_append_right _ List.mem_cons_self
      have hmarked : marked.Tallies calls attempts := by
        have hgiven := Tallied.giveUp h hin htries it.packet.toSharedPacket
        have hposted : marked.env.postedDraws = c.env.postedDraws :=
          (Io.postedDraws_perform c.env _).trans (List.append_nil _)
        rw [Tallies, hposted]
        exact hgiven
      have hmutes := mutes_runCallback marked
      have hcalled := hmarked.idles hmutes.idles
      simp only
      split
      · refine ih visited rfl (hmarked.idles ?_)
        have hsub : (visited ++ rest).Sublist c.writePackets :=
          hw ▸ (List.sublist_cons_self it rest).append_left visited
        exact ⟨hsub, hmutes.idles.heartbeat, hmutes.idles.now, hmutes.idles.curSeq,
          hmutes.idles.posted, hmutes.idles.trace⟩
      · rw [List.filterMap_nil, List.append_nil]
        exact hcalled.goes (fun _ h => h) (Goes.refl _ |>.emit (P := Effect.isUncounted) rfl rfl)
    · rename_i htries
      let tried : Ctx Io := { c with writePackets := visited ++ it.resent curTimePoint :: rest }
      obtain ⟨htrace, hposted, hseq⟩ := doWritePacket_attempt tried it.packet.toSharedPacket
      have hlist := (doWritePacket_fields tried (some it.packet.toSharedPacket)).1
      have hset := writePackets_resent c curTimePoint it visited rest
      have htally : (tried.doWritePacket (some it.packet.toSharedPacket)).Tallies calls
          (attempts ++ [⟨it.packet.toSharedPacket, c.isConnected⟩]) := by
        rw [Tallies, hw] at h
        rw [Tallies, htrace, hposted, hseq, hlist]
        exact h.resend htries curTimePoint c.isConnected c.socketOpen
      have hnext := ih _ hset htally
      rw [List.append_assoc] at hnext
      exact hnext

/-- What a handler tries. -/
def attempted (c : Ctx Io) : Handler → List Attempt
  | .task (.sendReqAsyncImpl packet _ _ _) => [⟨packet.toSharedPacket, c.isConnected⟩]
  | .wait timerId false =>
    match c.timer.find timerId with
    | none => []
    | some _ => ((c.doReconnectCheck c.now).visits c.now).filterMap Visit.attempt?
  | _ => []

/-- **A tick of the timer keeps the tally.** -/
theorem tallies_onTimer (h : c.Tallies calls attempts) (timerId : UInt32) :
    (c.onTimer timerId false).Tallies calls (attempts ++ c.attempted (.wait timerId false)) := by
  rw [onTimer, if_neg (by decide), Ctx.attempted]
  cases c.timer.find timerId with
  | none =>
    rw [List.append_nil]
    exact h
  | some info =>
    have hreconnect := h.idles (idles_doReconnectCheck c c.now)
    have hsweep := tallies_sweepFrom c.now [] _ rfl hreconnect
    rw [sweepFrom_snd] at hsweep
    have hbeat := hsweep.goes (fun _ h => h) (goes_doHeartbeatCheck _ c.now)
    exact hbeat.idles (idles_rescheduleTimer _ timerId)

end Ctx

namespace World

/-- What an event tries. -/
def attempted (w : World) (e : Event) : List Attempt :=
  match w.running e with
  | none => []
  | some (c, g) => c.attempted g

/-- What a run tries. -/
def attemptedAlong : World → List Event → List Attempt
  | _, [] => []
  | w, e :: es =>
    w.attempted e ++
      match w.step e with
      | none => []
      | some v => attemptedAlong v es

/-- The tally is right between two events. -/
def Tallies (w : World) (attempts : List Attempt) : Prop :=
  Tallied w.waitingDraws attempts w.client.writePackets w.client.curSeq w.io.trace

theorem tallies_enqueue {w : World} {attempts : List Attempt} (h : w.Tallies attempts)
    {packet : RequestPacket} {sendDraw : Nat} {opt : SendOpt} {callback : Callback}
    {rest : List Handler}
    (hr : w.io.ready = .task (.sendReqAsyncImpl packet sendDraw opt callback) :: rest)
    (script : List CallbackRun) :
    let c := ({ w with io := { w.io with ready := rest } } : World).enter script
    (w.leave (c.sendReqAsyncImpl packet sendDraw opt callback)).Tallies
      (attempts ++ [⟨packet.toSharedPacket, c.isConnected⟩]) := by
  intro c
  let it : SendingPacketInfo := ⟨packet, opt, sendDraw, callback, 1, c.now⟩
  let queued : Ctx Io := { c with writePackets := c.writePackets ++ [it] }
  obtain ⟨htrace, hposted, hseq⟩ := Ctx.doWritePacket_attempt queued packet.toSharedPacket
  have hlist := (Ctx.doWritePacket_fields queued (some packet.toSharedPacket)).1
  have hpop : w.io.postedDraws = it.seqDraw :: c.env.postedDraws := by
    rw [Io.postedDraws, hr]
    rfl
  have hwaiting : w.waitingDraws.Perm
      (it.seqDraw :: (w.sendCalls.map SendCall.seqDraw ++ c.env.postedDraws)) := by
    rw [waitingDraws, hpop]
    exact List.perm_middle
  show Tallied (w.sendCalls.map SendCall.seqDraw ++
    (queued.doWritePacket (some packet.toSharedPacket)).env.postedDraws) _
    (queued.doWritePacket (some packet.toSharedPacket)).writePackets
    (queued.doWritePacket (some packet.toSharedPacket)).curSeq
    (queued.doWritePacket (some packet.toSharedPacket)).env.trace
  rw [hposted, htrace, hseq, hlist]
  exact h.enqueue hwaiting rfl c.isConnected c.socketOpen

theorem tallies_step {w v : World} {e : Event} {attempts : List Attempt} (h : w.Tallies attempts)
    (hs : w.step e = some v) : v.Tallies (attempts ++ w.attempted e) := by
  rcases step_idles hs with ⟨hidle, hquiet⟩ | ⟨c, g, hrunning, hloud, rfl⟩
  · have hnone : w.attempted e = [] := by
      rw [World.attempted]
      split
      · rfl
      · rename_i c g hrunning
        have hg := hquiet c g hrunning
        unfold Ctx.attempted
        split
        · cases hg
        · cases hg
        · rfl
    obtain ⟨draws, hwaiting, hnodup, hfresh⟩ := hidle.waiting
    obtain ⟨effects, htrace, hall⟩ := hidle.trace
    rw [hnone, List.append_nil, Tallies, htrace]
    exact h.mono hidle.queue hidle.curSeq hwaiting hnodup hfresh
      (fun e he => Effect.isUncounted_of_isIdle (hall e he))
  have hattempts : w.attempted e = c.attempted g := by rw [World.attempted, hrunning]
  obtain ⟨script, rest, -, hr, rfl⟩ := running_eq_some hrunning
  rw [hattempts]
  cases g with
  | wait timerId ec =>
    cases ec with
    | true => cases hloud
    | false =>
      have hpop : ({ w.io with ready := rest } : Io).postedDraws = w.io.postedDraws := by
        rw [Io.postedDraws, Io.postedDraws, hr]
        rfl
      have hc : (({ w with io := { w.io with ready := rest } } : World).enter script).Tallies
          (w.sendCalls.map SendCall.seqDraw) attempts := by
        show Tallied (_ ++ ({ w.io with ready := rest } : Io).postedDraws) _ _ _ _
        rw [hpop]
        exact h
      exact Ctx.tallies_onTimer hc timerId
  | task task =>
    cases task with
    | sendReqAsyncImpl packet sendDraw opt callback => exact tallies_enqueue h hr script
    | _ => cases hloud
  | _ => cases hloud

theorem tallies_run {w v : World} {es : List Event} {attempts : List Attempt}
    (h : w.Tallies attempts) (hrun : Run.run step w es = some v) :
    v.Tallies (attempts ++ w.attemptedAlong es) := by
  induction es generalizing w attempts with
  | nil =>
    rw [attemptedAlong, List.append_nil]
    exact Option.some.inj hrun ▸ h
  | cons e es ih =>
    obtain ⟨u, hu, hrest⟩ := Run.run_cons hrun
    have hlater := ih (tallies_step h hu) hrest
    rw [List.append_assoc] at hlater
    rw [attemptedAlong, hu]
    exact hlater

theorem tallies_new : new.Tallies [] := by
  refine ⟨⟨List.nodup_nil, ?_⟩, ?_, ?_, fun _ => rfl, ?_⟩
  · exact fun n hn => absurd hn List.not_mem_nil
  · exact fun a ha => absurd ha List.not_mem_nil
  · exact fun it hin => absurd hin List.not_mem_nil
  · exact fun it packet hin => absurd hin List.not_mem_nil

/-- **`cur_tries_` counts the attempts, of which those that found the client connected
went out, and no request fails before it has been tried often enough.** -/
theorem tries_of_run {es : List Event} {w : World} (h : Run.run step new es = some w) :
    (∀ it ∈ w.client.writePackets,
      it.curTries.toNat =
        (new.attemptedAlong es).countP (Attempt.isFor it.packet.toSharedPacket) ∧
      transmissions w.io.trace it.packet.toSharedPacket ≤ it.curTries.toNat ∧
      (transmissions w.io.trace it.packet.toSharedPacket = it.curTries.toNat ↔
        ∀ a ∈ new.attemptedAlong es, a.packet = it.packet.toSharedPacket → a.connected = true)) ∧
    (∀ packet : RequestPacket, transmissions w.io.trace packet.toSharedPacket =
      (new.attemptedAlong es).countP (Attempt.isSent packet.toSharedPacket)) ∧
    ∀ it packet, .sendReqCallback it (-1) packet ∈ w.io.trace →
      max it.sendOpt.tries.toNat 1 ≤
        (new.attemptedAlong es).countP (Attempt.isFor it.packet.toSharedPacket) := by
  have hall := tallies_run tallies_new h
  rw [List.nil_append] at hall
  refine ⟨fun it hin => ?_, hall.sent, hall.failed⟩
  obtain ⟨-, hcount⟩ := hall.tries it hin
  have hsent := hall.sent it.packet
  refine ⟨hcount, ?_, ?_⟩
  · rw [hsent, hcount]
    exact Attempt.countP_isSent_le _ _
  · rw [hsent, hcount]
    exact Attempt.countP_isSent_eq_iff _ _

/-- The request of `requestExpires` was tried once, and sent. -/
theorem tries_of_run_sent :
    ∃ w it, Run.run step new requestExpires = some w ∧ it ∈ w.client.writePackets ∧
      transmissions w.io.trace it.packet.toSharedPacket = it.curTries.toNat := by
  have hrun : (Run.run step new requestExpires).map (fun w => (w.client.writePackets.length,
      (new.attemptedAlong requestExpires).all (fun a => a.connected))) = some (1, true) := by
    decide +kernel
  obtain ⟨w, hw, heq⟩ := Option.map_eq_some_iff.mp hrun
  obtain ⟨hlength, hconnected⟩ := Prod.mk.inj heq
  obtain ⟨it, hit⟩ := List.length_eq_one_iff.mp hlength
  have hin : it ∈ w.client.writePackets := hit ▸ List.mem_singleton_self it
  refine ⟨w, it, hw, hin, ?_⟩
  exact ((tries_of_run hw).1 it hin).2.2.mpr (fun a ha _ => List.all_eq_true.mp hconnected a ha)

/-- A request is submitted before `start`, and the client never connects. -/
def submitEarly : List Event :=
  [.sendDrawSeq 5 none 0 (some ⟨1, 1⟩) 0, .sendDrawId 0, .sendPost 0, .run []]

def neverConnects : List Event :=
  submitEarly ++ [.start "host" 1, .run [], .run [], .advance (seconds 1), .expired 0, .run []]

/-- **It counts as tried while nothing was sent, and fails after one second of that.** -/
theorem tried_unsent :
    (∃ w, Run.run step new submitEarly = some w ∧ ∃ it ∈ w.client.writePackets,
      it.curTries.toNat = 1 ∧ transmissions w.io.trace it.packet.toSharedPacket = 0) ∧
    ∃ w, Run.run step new neverConnects = some w ∧
      ∃ it packet, .sendReqCallback it (-1) packet ∈ w.io.trace ∧
        transmissions w.io.trace it.packet.toSharedPacket < max it.sendOpt.tries.toNat 1 := by
  have hearly : (Run.run step new submitEarly).map (fun w => w.client.writePackets.any (fun it =>
      decide (it.curTries.toNat = 1 ∧ transmissions w.io.trace it.packet.toSharedPacket = 0))) =
      some true := by
    decide +kernel
  have hnever : (Run.run step new neverConnects).map (fun w =>
      (w.io.trace.filterMap Effect.callback?).any (fun told =>
        decide (told.2.1 = -1 ∧ transmissions w.io.trace told.1.packet.toSharedPacket <
          max told.1.sendOpt.tries.toNat 1))) = some true := by
    decide +kernel
  constructor
  · obtain ⟨w, hw, hany⟩ := Option.map_eq_some_iff.mp hearly
    obtain ⟨it, hin, hit⟩ := List.any_eq_true.mp hany
    exact ⟨w, hw, it, hin, of_decide_eq_true hit⟩
  · obtain ⟨w, hw, hany⟩ := Option.map_eq_some_iff.mp hnever
    obtain ⟨⟨it, result, packet⟩, hin, hit⟩ := List.any_eq_true.mp hany
    obtain ⟨rfl, hfew⟩ := of_decide_eq_true hit
    obtain ⟨effect, heffect, htold⟩ := List.mem_filterMap.mp hin
    cases effect with
    | sendReqCallback it' result' packet' =>
      obtain ⟨rfl, hrest⟩ := Prod.mk.inj (Option.some.inj htold)
      obtain ⟨rfl, rfl⟩ := Prod.mk.inj hrest
      exact ⟨w, hw, it', packet', heffect, hfew⟩
    | _ => cases htold

end World

end Ibase
