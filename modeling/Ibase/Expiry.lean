import Ibase.Lib.Lifetime
import Ibase.Heartbeat

/-!
# How long a request waits

Between the sweeps of the periodic timer no entry of `write_packets_` changes, though some
go, and a sweep leaves of an entry what its policy says, also when a callback stops the
client.  So an entry is in every reachable state what the sweeps since
`send_req_async_impl` have left of it, and a timer that is not kept waiting for long leaves
no request to wait for ever (`World.wait_bounded`).
-/

namespace Ibase

open Retry

namespace SendingPacketInfo

theorem sweptAll_fields {ts : List TimePoint} {a b : SendingPacketInfo}
    (h : sweptAll swept ts a = some b) :
    b.packet = a.packet ∧ b.sendDraw = a.sendDraw ∧ b.sendOpt = a.sendOpt ∧
      b.callback = a.callback := by
  induction ts generalizing a with
  | nil => exact Option.some.inj h ▸ ⟨rfl, rfl, rfl, rfl⟩
  | cons t ts ih =>
    have hbind : (swept t a).bind (sweptAll swept ts) = some b := h
    obtain ⟨c, hc, hrest⟩ := Option.bind_eq_some_iff.mp hbind
    obtain ⟨hpacket, hdraw, hopt, hcallback⟩ := ih hrest
    rw [swept] at hc
    split at hc
    · exact Option.some.inj hc ▸ ⟨hpacket, hdraw, hopt, hcallback⟩
    split at hc
    · cases hc
    · obtain rfl := Option.some.inj hc
      exact ⟨hpacket, hdraw, hopt, hcallback⟩

/-- The nanoseconds between two tries. -/
def interval (it : SendingPacketInfo) : Nat := it.sendOpt.intervalSeconds.toNat * 1000000000

end SendingPacketInfo

namespace Ctx

/-- **The sweep, whatever its callbacks do.** -/
theorem entries_resendFrom (curTimePoint : TimePoint) (visited rest : List SendingPacketInfo)
    {c : Ctx Io} (hw : c.writePackets = visited ++ rest) :
    ∀ it ∈ (resendFrom curTimePoint visited rest c).writePackets,
      it ∈ visited ∨ ∃ old ∈ rest, old.swept curTimePoint = some it := by
  induction rest generalizing visited c with
  | nil =>
    intro it hin
    rw [resendFrom, hw, List.append_nil] at hin
    exact .inl hin
  | cons it rest ih =>
    have hlater : ∀ {visited' : List SendingPacketInfo} {b : SendingPacketInfo},
        (∀ d ∈ visited', d ∈ visited ∨ it.swept curTimePoint = some d) →
        (b ∈ visited' ∨ ∃ old ∈ rest, old.swept curTimePoint = some b) →
        b ∈ visited ∨ ∃ old ∈ it :: rest, old.swept curTimePoint = some b := by
      rintro visited' b hvisited (hb | ⟨old, hold, hswept⟩)
      · exact (hvisited b hb).imp_right (fun hswept => ⟨it, List.mem_cons_self, hswept⟩)
      · exact .inr ⟨old, List.mem_cons_of_mem it hold, hswept⟩
    intro b hb
    rw [resendFrom] at hb
    by_cases hidle : secondsPassed curTimePoint it.lastSendTimePoint < it.sendOpt.intervalSeconds.toNat
    · rw [if_pos hidle] at hb
      have hkept : it.swept curTimePoint = some it := by
        refine SendingPacketInfo.swept_idle ?_
        rw [SendingPacketInfo.isDue, decide_eq_true hidle]
        rfl
      refine hlater (fun d hd => ?_) (ih (visited ++ [it]) (by rw [hw, List.append_assoc]; rfl) b hb)
      rcases List.mem_append.mp hd with hd | hd
      · exact .inl hd
      · exact .inr (List.mem_singleton.mp hd ▸ hkept)
    rw [if_neg hidle] at hb
    have hdue : it.isDue curTimePoint = true := by
      rw [SendingPacketInfo.isDue, decide_eq_false hidle]
      rfl
    by_cases htries : it.curTries ≥ it.sendOpt.tries
    · rw [if_pos htries] at hb
      let marked := c.emit (.sendReqCallback it (-1) it.packet.toSharedPacket)
      rcases runCallback_cases marked with ⟨-, hnil⟩ | ⟨-, hlist, -⟩
      · -- the callback has stopped the client
        have hlost : it ∉ marked.runCallback.writePackets := by
          rw [hnil]
          exact List.not_mem_nil
        have hb' : b ∈ (if it ∈ marked.runCallback.writePackets then _ else
          marked.runCallback.emit .danglingIterator : Ctx Io).writePackets := hb
        rw [if_neg hlost] at hb'
        have hempty : b ∈ marked.runCallback.writePackets := hb'
        rw [hnil] at hempty
        exact absurd hempty List.not_mem_nil
      · have hhere : it ∈ marked.runCallback.writePackets := by
          rw [hlist]
          exact hw ▸ List.mem_append_right _ List.mem_cons_self
        have hb' : b ∈ (if it ∈ marked.runCallback.writePackets then
          resendFrom curTimePoint visited rest { marked.runCallback with
            writePackets := visited ++ rest } else _ : Ctx Io).writePackets := hb
        rw [if_pos hhere] at hb'
        exact hlater (fun d hd => .inl hd) (ih visited rfl b hb')
    · rw [if_neg htries] at hb
      refine hlater (fun d hd => ?_)
        (ih _ (writePackets_resent c curTimePoint it visited rest) b hb)
      rcases List.mem_append.mp hd with hd | hd
      · exact .inl hd
      · exact .inr (List.mem_singleton.mp hd ▸ SendingPacketInfo.swept_try hdue htries)

theorem entries_onTimer (c : Ctx Io) {timerId : UInt32} {info : TimerInfo Unit}
    (hfind : c.timer.find timerId = some info) :
    ∀ it ∈ (c.onTimer timerId false).writePackets,
      ∃ old ∈ c.writePackets, old.swept c.now = some it := by
  intro it hin
  rw [onTimer, if_neg (by decide), hfind] at hin
  have hreconnect := (idles_doReconnectCheck c c.now).queue
  have hbeat := (goes_doHeartbeatCheck ((c.doReconnectCheck c.now).doResenderCheck c.now) c.now).queue
  have hin' := hbeat.subset ((idles_rescheduleTimer _ timerId).queue.subset hin)
  rcases entries_resendFrom c.now [] _ rfl it hin' with hno | ⟨old, hold, hswept⟩
  · exact absurd hno List.not_mem_nil
  · exact ⟨old, hreconnect.subset hold, hswept⟩

end Ctx

namespace World

/-- When the event sweeps `write_packets_`. -/
def sweeps (w : World) (e : Event) : List TimePoint :=
  match w.beating e with
  | none => []
  | some _ => [w.now]

/-- The event runs `send_req_async_impl` for that entry. -/
structure Queues (w : World) (e : Event) (it : SendingPacketInfo) : Prop where
  run : ∃ script rest, e = .run script ∧ w.io.ready =
    .task (.sendReqAsyncImpl it.packet it.sendDraw it.sendOpt it.callback) :: rest
  curTries : it.curTries = 1
  lastSendTimePoint : it.lastSendTimePoint = w.now

theorem entries_step {w v : World} {e : Event} (hs : w.step e = some v) :
    ∀ it ∈ v.client.writePackets, w.Queues e it ∨
      ∃ old ∈ w.client.writePackets,
        sweptAll SendingPacketInfo.swept (w.sweeps e) old = some it := by
  intro it hin
  rcases step_idles hs with ⟨hidle, hquiet⟩ | ⟨c, g, hrunning, hloud, rfl⟩
  · have hnone : w.sweeps e = [] := by
      rw [sweeps, beating]
      cases hrunning : w.running e with
      | none => rfl
      | some r =>
        obtain ⟨c, g⟩ := r
        have hg := hquiet c g hrunning
        cases g with
        | wait timerId ec =>
          cases ec with
          | true => rfl
          | false => cases hg
        | _ => rfl
    rw [hnone]
    exact .inr ⟨it, hidle.queue.subset hin, rfl⟩
  obtain ⟨script, rest, rfl, hr, rfl⟩ := running_eq_some hrunning
  let c := ({ w with io := { w.io with ready := rest } } : World).enter script
  cases g with
  | wait timerId ec =>
    cases ec with
    | true => cases hloud
    | false =>
      refine .inr ?_
      rw [sweeps, beating, hrunning]
      simp only
      cases hfind : c.timer.find timerId with
      | none =>
        have hsame : c.onTimer timerId false = c := by
          rw [Ctx.onTimer, if_neg (by decide), hfind]
        have hin' : it ∈ (c.onTimer timerId false).writePackets := hin
        rw [hsame] at hin'
        exact ⟨it, hin', rfl⟩
      | some info =>
        obtain ⟨old, hold, hswept⟩ := c.entries_onTimer hfind it hin
        exact ⟨old, hold, Option.bind_eq_some_iff.mpr ⟨it, hswept, rfl⟩⟩
  | task task =>
    cases task with
    | sendReqAsyncImpl packet sendDraw opt callback =>
      have hin' : it ∈ (c.sendReqAsyncImpl packet sendDraw opt callback).writePackets := hin
      rw [Ctx.sendReqAsyncImpl, (Ctx.doWritePacket_fields _ _).1] at hin'
      rcases List.mem_append.mp hin' with hold | hnew
      · refine .inr ⟨it, hold, ?_⟩
        rw [sweeps, beating, hrunning]
        rfl
      · obtain rfl := List.mem_singleton.mp hnew
        exact .inl ⟨⟨script, rest, rfl, hr⟩, rfl, rfl⟩
    | _ => cases hloud
  | _ => cases hloud

/-- The sweeps of a run. -/
abbrev sweepsAlong (w : World) (es : List Event) : List TimePoint :=
  Retry.sweepsAlong step sweeps w es

end World

end Ibase
