import Ibase.Lib.Counter
import Ibase.Lib.Ledger
import Ibase.Uplink

/-!
# What becomes of a notification

A session keeps every notification it sends until a push frame with the same
`cmd` and `seq` comes back, or until it has been sent three times.  `Accounts` is
what a session's list and its past say of each other: every notification that was
queued is in the list still, or was acknowledged, or was given up.

The push frames of a client are acknowledgements and heartbeats.  A heartbeat has
`cmd` zero, so for notifications under any other `cmd` only an acknowledgement
matches (`Network.removed_by_ack`).
-/

namespace Ibase

open Relation

/-- One of the notifications that the server `serial` has published. -/
def SharedPacket.Published (serial curSeq : Nat) (p : SharedPacket) : Prop :=
  ∃ draw cmd, p.origin = .notification serial draw cmd ∧ 0 < draw ∧ draw ≤ curSeq

namespace Session

def Effect.queued? : Effect → Option SharedPacket
  | .queued info => some info.packet
  | _ => none

def Effect.removed? : Effect → Option SharedPacket
  | .acked info _ => some info.packet
  | .gaveUp info => some info.packet
  | _ => none

/-- The notifications that the session has put into its list. -/
def queued (log : List Effect) : List SharedPacket := log.filterMap Effect.queued?

/-- The notifications that it has taken out again. -/
def removed (log : List Effect) : List SharedPacket := log.filterMap Effect.removed?

/-- How often the session has written this packet. -/
def attempts (log : List Effect) (packet : SharedPacket) : Nat := log.count (.asyncWrite packet)

/-- What must be so for a session to do this.  `P` are the packets that arrive. -/
def Effect.Justified (P : SharedPacket → Prop) (serial curSeq : Nat) (log : List Effect) :
    Effect → Prop
  | .acked info packet => P packet ∧ packet.isPush = true ∧ packet.cmd = info.packet.cmd ∧
      packet.seq = info.packet.seq ∧ info.packet.Published serial curSeq
  | .gaveUp info => info.curTries = maxResendTries ∧ 3 ≤ attempts log info.packet
  | .asyncWrite packet =>
    (∃ cmd seq, packet.origin = .response cmd seq) ∨ packet.Published serial curSeq
  | _ => True

/-- The list of a session and its past. -/
structure Accounts (P : SharedPacket → Prop) (serial curSeq : Nat) (s : Session)
    (log : List Effect) : Prop where
  socketOpen : s.socketOpen = true
  balance : (queued log).Perm (s.writePackets.map (fun info => info.packet) ++ removed log)
  entries : ∀ info ∈ s.writePackets, info.packet.Published serial curSeq ∧
    info.curTries ≤ maxResendTries ∧ info.curTries.toNat ≤ attempts log info.packet
  justified : ∀ e ∈ log, e.Justified P serial curSeq log

variable {P : SharedPacket → Prop} {serial curSeq : Nat}

theorem accounts_new (sessionId : UInt32) : (new sessionId).Accounts P serial curSeq [] :=
  ⟨rfl, List.Perm.refl _, fun _ hin => absurd hin List.not_mem_nil,
    fun _ he => absurd he List.not_mem_nil⟩

theorem attempts_append (log effects : List Effect) (packet : SharedPacket) :
    attempts (log ++ effects) packet = attempts log packet + attempts effects packet :=
  List.count_append

theorem Effect.Justified.append {log : List Effect} {e : Effect}
    (h : e.Justified P serial curSeq log) (effects : List Effect) :
    e.Justified P serial curSeq (log ++ effects) := by
  cases e with
  | gaveUp info =>
    refine ⟨h.1, ?_⟩
    rw [attempts_append]
    exact Nat.le_add_right_of_le h.2
  | _ => exact h

/-- More packets arrive, and more notifications are published. -/
theorem Effect.Justified.mono {Q : SharedPacket → Prop} {curSeq' : Nat} {log : List Effect}
    {e : Effect} (h : e.Justified P serial curSeq log) (hP : ∀ p, P p → Q p)
    (hle : curSeq ≤ curSeq') : e.Justified Q serial curSeq' log := by
  have hpub : ∀ p : SharedPacket, p.Published serial curSeq → p.Published serial curSeq' :=
    fun p ⟨draw, cmd, horigin, hpos, hdraw⟩ => ⟨draw, cmd, horigin, hpos, Nat.le_trans hdraw hle⟩
  cases e with
  | acked info packet =>
    obtain ⟨hp, hpush, hcmd, hseq, horigin⟩ := h
    exact ⟨hP _ hp, hpush, hcmd, hseq, hpub _ horigin⟩
  | asyncWrite packet => exact h.imp_right (hpub _)
  | _ => exact h

theorem Accounts.mono {Q : SharedPacket → Prop} {curSeq' : Nat} {s : Session} {log : List Effect}
    (h : s.Accounts P serial curSeq log) (hP : ∀ p, P p → Q p) (hle : curSeq ≤ curSeq') :
    s.Accounts Q serial curSeq' log := by
  refine ⟨h.socketOpen, h.balance, fun info hin => ?_, fun e he => (h.justified e he).mono hP hle⟩
  obtain ⟨⟨draw, cmd, horigin, hpos, hdraw⟩, htries⟩ := h.entries info hin
  exact ⟨⟨draw, cmd, horigin, hpos, Nat.le_trans hdraw hle⟩, htries⟩

/-- The past of a session goes on. -/
theorem Accounts.justified_append {s : Session} {log effects : List Effect}
    (h : s.Accounts P serial curSeq log)
    (he : ∀ e ∈ effects, e.Justified P serial curSeq (log ++ effects)) :
    ∀ e ∈ log ++ effects, e.Justified P serial curSeq (log ++ effects) := by
  intro e hin
  rcases List.mem_append.mp hin with hin | hin
  · exact (h.justified e hin).append effects
  · exact he e hin

theorem Accounts.entries_append {s : Session} {log : List Effect}
    (h : s.Accounts P serial curSeq log) (effects : List Effect) :
    ∀ info ∈ s.writePackets, info.packet.Published serial curSeq ∧
      info.curTries ≤ maxResendTries ∧
      info.curTries.toNat ≤ attempts (log ++ effects) info.packet := by
  intro info hin
  obtain ⟨hpub, hle, htries⟩ := h.entries info hin
  rw [attempts_append]
  exact ⟨hpub, hle, Nat.le_add_right_of_le htries⟩

/-- An entry leaves the list. -/
theorem balance_remove {s : Session} {log : List Effect} {rest : List SendingPacketInfo}
    (it : SendingPacketInfo) {e : Effect}
    (h : (queued log).Perm (s.writePackets.map (fun info => info.packet) ++ removed log))
    (hs : s.writePackets.Perm (it :: rest)) (hq : e.queued? = none)
    (hr : e.removed? = some it.packet) :
    (queued (log ++ [e])).Perm (rest.map (fun info => info.packet) ++ removed (log ++ [e])) := by
  have hqueued : queued (log ++ [e]) = queued log := by
    rw [queued, List.filterMap_append, List.filterMap_cons_none hq]
    exact List.append_nil _
  have hremoved : removed (log ++ [e]) = removed log ++ [it.packet] := by
    rw [removed, List.filterMap_append, List.filterMap_cons_some hr]
    rfl
  rw [hqueued, hremoved]
  exact Ledger.go h (hs.map (fun info : SendingPacketInfo => info.packet))

/-- What neither adds nor removes a notification. -/
theorem balance_keep {log effects : List Effect} {packets packets' : List SharedPacket}
    (h : (queued log).Perm (packets ++ removed log)) (hp : packets' = packets)
    (hq : ∀ e ∈ effects, e.queued? = none) (hr : ∀ e ∈ effects, e.removed? = none) :
    (queued (log ++ effects)).Perm (packets' ++ removed (log ++ effects)) := by
  have hqueued : queued (log ++ effects) = queued log := by
    rw [queued, List.filterMap_append, List.filterMap_eq_nil_iff.mpr hq]
    exact List.append_nil _
  have hremoved : removed (log ++ effects) = removed log := by
    rw [removed, List.filterMap_append, List.filterMap_eq_nil_iff.mpr hr]
    exact List.append_nil _
  rw [hqueued, hremoved, hp]
  exact h

theorem written_open {s : Session} (h : s.socketOpen = true) (packet : SharedPacket) :
    s.written packet = [.asyncWrite packet] := if_pos h

/-- **Whatever happens to a session, the accounts stay right.** -/
theorem Accounts.step {s s' : Session} {log effects : List Effect}
    (h : s.Accounts P serial curSeq log) (hs : Step P serial curSeq s effects s') :
    s'.Accounts P serial curSeq (log ++ effects) := by
  cases hs with
  | aside _ he hw ht ho =>
    have hnone : ∀ e ∈ effects, e.queued? = none ∧ e.removed? = none ∧
        ∀ log, e.Justified P serial curSeq log := by
      intro e hin
      have hside := he e hin
      cases e <;> first | exact Bool.noConfusion hside | exact ⟨rfl, rfl, fun _ => trivial⟩
    refine ⟨ho.trans h.socketOpen, ?_, ?_, h.justified_append (fun e hin => (hnone e hin).2.2 _)⟩
    · exact balance_keep h.balance (by rw [hw]) (fun e hin => (hnone e hin).1)
        (fun e hin => (hnone e hin).2.1)
    · rw [hw]
      exact h.entries_append effects
  | respond packet cmd seq horigin =>
    rw [written_open h.socketOpen]
    refine ⟨h.socketOpen, balance_keep h.balance rfl (by simp [Effect.queued?])
      (by simp [Effect.removed?]), h.entries_append _, h.justified_append (fun e hin => ?_)⟩
    rw [List.mem_singleton.mp hin]
    exact .inl ⟨cmd, seq, horigin⟩
  | push packet draw cmd time horigin hdraw =>
    rw [written_open h.socketOpen]
    have hpub : packet.Published serial curSeq := ⟨draw, cmd, horigin, hdraw⟩
    refine ⟨h.socketOpen, ?_, ?_, h.justified_append (fun e hin => ?_)⟩
    · have hqueued : queued (log ++ [.queued ⟨packet, 1, time⟩, .asyncWrite packet]) =
          queued log ++ [packet] := by
        rw [queued, List.filterMap_append]
        rfl
      have hremoved : removed (log ++ [.queued ⟨packet, 1, time⟩, .asyncWrite packet]) =
          removed log := by
        rw [removed, List.filterMap_append]
        exact List.append_nil _
      rw [hqueued, hremoved, List.map_append]
      exact Ledger.come h.balance packet
    · intro info hin
      rcases List.mem_append.mp hin with hin | hin
      · exact h.entries_append _ info hin
      · rw [List.mem_singleton.mp hin]
        refine ⟨hpub, (by decide : (1 : UInt32) ≤ 3), ?_⟩
        rw [attempts_append]
        refine Nat.le_add_left_of_le ?_
        exact List.count_pos_iff.mpr (List.mem_cons_of_mem _ (List.mem_singleton.mpr rfl))
    · rcases List.mem_cons.mp hin with rfl | hin
      · trivial
      · rw [List.mem_singleton.mp hin]
        exact .inr hpub
  | ack packet it hp hpush hfind =>
    have hperm := Ledger.perm_cons_eraseP hfind
    have hit := List.mem_of_find?_eq_some hfind
    obtain ⟨hcmd, hseq⟩ : it.packet.cmd = packet.cmd ∧ it.packet.seq = packet.seq := by
      simpa [Ctx.matchesPacket] using List.find?_some hfind
    refine ⟨h.socketOpen, balance_remove _ h.balance hperm rfl rfl, fun info hin => ?_,
      h.justified_append (fun e hin => ?_)⟩
    · exact h.entries_append _ info (List.mem_of_mem_eraseP hin)
    · rw [List.mem_singleton.mp hin]
      exact ⟨hp, hpush, hcmd.symm, hseq.symm, (h.entries it hit).1⟩
  | resend visited rest it time hw htries =>
    rw [written_open h.socketOpen]
    have hit : it ∈ s.writePackets := hw ▸ List.mem_append_right _ List.mem_cons_self
    obtain ⟨hpub, -, hcount⟩ := h.entries it hit
    have hlt : it.curTries.toNat < 3 := UInt32.lt_iff_toNat_lt.mp htries
    have hnext := Counter.toNat_succ htries
    refine ⟨h.socketOpen, balance_keep h.balance ?_ (by simp [Effect.queued?])
      (by simp [Effect.removed?]), fun info hin => ?_, h.justified_append (fun e hin => ?_)⟩
    · rw [hw, List.map_append, List.map_append]
      rfl
    · have hsent : ∀ info ∈ visited ++ rest, info ∈ s.writePackets := by
        intro info hin
        rw [hw]
        exact ((List.sublist_cons_self it rest).append_left visited).subset hin
      rcases List.mem_append.mp hin with hin | hin
      · exact h.entries_append _ info (hsent info (List.mem_append_left _ hin))
      rcases List.mem_cons.mp hin with rfl | hin
      · refine ⟨hpub, UInt32.le_iff_toNat_le.mpr (by rw [hnext]; exact hlt), ?_⟩
        show (it.curTries + 1).toNat ≤ attempts (log ++ [.asyncWrite it.packet]) it.packet
        rw [hnext, attempts_append]
        refine Nat.add_le_add hcount ?_
        exact List.count_pos_iff.mpr (List.mem_singleton.mpr rfl)
      · exact h.entries_append _ info (hsent info (List.mem_append_right _ hin))
    · rw [List.mem_singleton.mp hin]
      exact .inr hpub
  | giveUp visited rest it hw htries =>
    have hit : it ∈ s.writePackets := hw ▸ List.mem_append_right _ List.mem_cons_self
    obtain ⟨hpub, hmax, hcount⟩ := h.entries it hit
    have heq : it.curTries = maxResendTries := UInt32.le_antisymm hmax htries
    refine ⟨h.socketOpen, balance_remove it h.balance (by rw [hw]; exact List.perm_middle)
      rfl rfl, fun info hin => h.entries_append _ info ?_, h.justified_append (fun e hin => ?_)⟩
    · rw [hw]
      exact ((List.sublist_cons_self it rest).append_left visited).subset hin
    · rw [List.mem_singleton.mp hin]
      refine ⟨heq, ?_⟩
      rw [attempts_append]
      refine Nat.le_add_right_of_le ?_
      rw [heq] at hcount
      exact hcount

end Session

namespace Server

def Effect.of? (number : Nat) : Effect → Option Session.Effect
  | .session m effect => if m = number then some effect else none
  | _ => none

/-- What one session did. -/
def sessionLog (number : Nat) (log : List Effect) : List Session.Effect :=
  log.filterMap (Effect.of? number)

theorem sessionLog_append (number : Nat) (log log' : List Effect) :
    sessionLog number (log ++ log') = sessionLog number log ++ sessionLog number log' :=
  List.filterMap_append

theorem sessionLog_self (number : Nat) (effects : List Session.Effect) :
    sessionLog number (effects.map (Effect.session number)) = effects := by
  induction effects with
  | nil => rfl
  | cons effect effects ih =>
    have hself : Effect.of? number (.session number effect) = some effect := if_pos rfl
    rw [List.map_cons, sessionLog, List.filterMap_cons_some hself]
    exact congrArg (List.cons effect) ih

theorem sessionLog_other {number m : Nat} (h : m ≠ number) (effects : List Session.Effect) :
    sessionLog number (effects.map (Effect.session m)) = [] := by
  refine List.filterMap_eq_nil_iff.mpr (fun e he => ?_)
  obtain ⟨effect, -, rfl⟩ := List.mem_map.mp he
  exact if_neg h

/-- An effect of no session. -/
theorem sessionLog_concat {number : Nat} {log : List Effect} {e : Effect}
    (h : ∀ m effect, e ≠ .session m effect) : sessionLog number (log ++ [e]) = sessionLog number log := by
  have hnone : sessionLog number [e] = [] := by
    cases e with
    | session m effect => exact absurd rfl (h m effect)
    | _ => rfl
  rw [sessionLog_append, hnone, List.append_nil]

theorem mem_sessionLog {number : Nat} {log : List Effect} {effect : Session.Effect}
    (h : .session number effect ∈ log) : effect ∈ sessionLog number log :=
  List.mem_filterMap.mpr ⟨_, h, if_pos rfl⟩

end Server

open Server (Log sessionLog)

namespace Hub

/-- The accounts of all sessions. -/
structure Accounted (P : SharedPacket → Prop) (h : Hub Log) : Prop where
  heap_le : ∀ number s, h.heap number = some s → number ≤ h.curSessionId
  accounts : ∀ number s, h.heap number = some s →
    s.Accounts P h.serial h.curSeq (sessionLog number h.env.trace)
  none : ∀ number, h.heap number = none → sessionLog number h.env.trace = []

variable {P : SharedPacket → Prop}

theorem Accounted.of_logs {h : Hub Log} (ha : h.Accounted P) {env : Log}
    (henv : ∀ number, sessionLog number env.trace = sessionLog number h.env.trace) :
    ({ h with env := env } : Hub Log).Accounted P := by
  refine ⟨ha.heap_le, fun number s hs => ?_, fun number hs => ?_⟩
  · rw [henv]
    exact ha.accounts number s hs
  · rw [henv]
    exact ha.none number hs

/-- A session goes on, and with it its log. -/
theorem Accounted.setSession {h : Hub Log} (ha : h.Accounted P) {number : Nat} {s s' : Session}
    (hs : h.heap number = some s) (effects : List Session.Effect)
    (hs' : s'.Accounts P h.serial h.curSeq (sessionLog number h.env.trace ++ effects)) :
    ((h.setSession number s').emitAll number effects).Accounted P := by
  refine ⟨fun n t hn => ?_, fun n t hn => ?_, fun n hn => ?_⟩
  · rcases heap_setSession hn with ⟨rfl, -⟩ | ⟨-, hn⟩
    · exact ha.heap_le n s hs
    · exact ha.heap_le n t hn
  · rw [trace_emitAll, Server.sessionLog_append]
    rcases heap_setSession hn with ⟨rfl, rfl⟩ | ⟨hne, hn⟩
    · rw [Server.sessionLog_self]
      exact hs'
    · rw [Server.sessionLog_other (Ne.symm hne), List.append_nil]
      exact ha.accounts n t hn
  · obtain ⟨hne, hnone⟩ := heap_none_setSession hn
    rw [trace_emitAll, Server.sessionLog_append, Server.sessionLog_other (Ne.symm hne),
      List.append_nil]
    exact ha.none n hnone

theorem Accounted.request {h : Hub Log} (ha : h.Accounted P) {number : Nat} {s : Session}
    (hs : h.heap number = some s) (tracker : RecentlyPacketTracker) :
    (h.setSession number { s with tracker := tracker }).Accounted P := by
  have hacc := ha.accounts number s hs
  refine ha.setSession hs [] ?_
  rw [List.append_nil]
  exact ⟨hacc.socketOpen, hacc.balance, hacc.entries, hacc.justified⟩

/-- **Every step keeps the accounts.** -/
theorem accounted_step {h k : Hub Log} (hs : Step P h k) (ha : h.Accounted P) : k.Accounted P := by
  cases hs with
  | emit effect he =>
    refine ha.of_logs (fun number => Server.sessionLog_concat ?_)
    rintro m effect' rfl
    exact Bool.noConfusion he
  | later t => exact ⟨ha.heap_le, ha.accounts, ha.none⟩
  | draw =>
    exact ⟨ha.heap_le, fun number s hs => (ha.accounts number s hs).mono (fun _ => id)
      (Nat.le_succ _), ha.none⟩
  | accept =>
    refine ⟨fun n t hn => ?_, fun n t hn => ?_, fun n hn => ha.none n (heap_none_setSession hn).2⟩
    · rcases heap_setSession hn with ⟨rfl, -⟩ | ⟨-, hn⟩
      · exact Nat.le_refl _
      · exact Nat.le_succ_of_le (ha.heap_le n t hn)
    · rcases heap_setSession hn with ⟨rfl, rfl⟩ | ⟨-, hn⟩
      · -- there was no session of this number
        have hfree : h.heap (h.curSessionId + 1) = none := by
          cases hheap : h.heap (h.curSessionId + 1) with
          | none => rfl
          | some t => exact absurd (ha.heap_le _ t hheap) (Nat.not_succ_le_self _)
        have hempty : sessionLog (h.curSessionId + 1) h.env.trace = [] := ha.none _ hfree
        show Session.Accounts P h.serial h.curSeq _ (sessionLog (h.curSessionId + 1) h.env.trace)
        rw [hempty]
        exact Session.accounts_new _
      · exact ha.accounts n t hn
  | session number hs hstep => exact ha.setSession hs _ ((ha.accounts number _ hs).step hstep)
  | request number packet hs hp hpush => exact ha.request hs _
  | invoke number packet processor hs hp hpush hnew =>
    exact (ha.request hs _).of_logs (fun m => Server.sessionLog_concat (by simp))

theorem accounted_steps {h k : Hub Log} (hs : ReflTransGen (Step P) h k) (ha : h.Accounted P) :
    k.Accounted P := by
  induction hs with
  | refl => exact ha
  | tail _ hstep ih => exact accounted_step hstep ih

theorem Accounted.mono {Q : SharedPacket → Prop} {h : Hub Log} (ha : h.Accounted P)
    (hP : ∀ p, P p → Q p) : h.Accounted Q :=
  ⟨ha.heap_le, fun number s hs => (ha.accounts number s hs).mono hP (Nat.le_refl _), ha.none⟩

/-- What is in the log of a server is justified. -/
theorem Accounted.justified {h : Hub Log} (ha : h.Accounted P) {number : Nat}
    {effect : Session.Effect} (hin : effect ∈ sessionLog number h.env.trace) :
    effect.Justified P h.serial h.curSeq (sessionLog number h.env.trace) := by
  cases hheap : h.heap number with
  | none =>
    rw [ha.none number hheap] at hin
    exact absurd hin List.not_mem_nil
  | some s => exact (ha.accounts number s hheap).justified effect hin

end Hub

namespace Network

/-- What a session of the present server did. -/
def sessionLog (n : Network) (number : Nat) : List Session.Effect :=
  Server.sessionLog number n.server.env.trace

/-- The accounts of the server are right, and the servers before have published what
they pushed. -/
structure Settled (n : Network) : Prop where
  accounted : n.server.hub.Accounted (fun p => p ∈ n.uplink)
  past : ∀ log ∈ n.past, ∀ number p, .session number (.asyncWrite p) ∈ log → p.isPush = true →
    ∃ server draw cmd, p.origin = .notification server draw cmd

theorem accounted_new {P : SharedPacket → Prop} (serial : Nat) (now : TimePoint) :
    (Server.Ctx.new serial now).hub.Accounted P :=
  ⟨fun _ _ h => absurd h (by simp [Server.Ctx.hub, Server.Ctx.new]),
    fun _ _ h => absurd h (by simp [Server.Ctx.hub, Server.Ctx.new]), fun _ _ => rfl⟩

theorem settled_new : new.Settled :=
  ⟨accounted_new 0 0, fun _ hlog => absurd hlog List.not_mem_nil⟩

/-- A push of the server is a notification that it has published. -/
theorem Settled.published {n : Network} (hn : n.Settled) {number : Nat} {p : SharedPacket}
    (hin : .session number (.asyncWrite p) ∈ n.server.env.trace) (hpush : p.isPush = true) :
    p.Published n.server.serial n.server.curSeq := by
  rcases hn.accounted.justified (Server.mem_sessionLog hin) with ⟨cmd, seq, horigin⟩ | hpub
  · have hpush' : p.origin.isPush = true := p.isPush_eq ▸ hpush
    rw [horigin] at hpush'
    exact absurd hpush' (by simp [Origin.isPush])
  · exact hpub

/-- A push on the wire is a notification of some server. -/
theorem Settled.notification {n : Network} (hn : n.Settled) {p : SharedPacket}
    (hp : p ∈ n.downlink) (hpush : p.isPush = true) :
    ∃ server draw cmd, p.origin = .notification server draw cmd := by
  obtain ⟨log, hlog, number, hin⟩ := mem_downlink.mp hp
  rcases List.mem_append.mp hlog with hlog | hlog
  · exact hn.past log hlog number p hin hpush
  · rw [List.mem_singleton.mp hlog] at hin
    obtain ⟨draw, cmd, horigin, -⟩ := hn.published hin hpush
    exact ⟨_, draw, cmd, horigin⟩

theorem settled_step {n m : Network} {e : Event} (h : n.Happens e m) (hl : n.Listening)
    (hn : n.Settled) : m.Settled := by
  have hup := hn.accounted.mono (fun p hp => uplink_subset h hl hp)
  cases h with
  | client event w he h => exact ⟨hup, hn.past⟩
  | hear packet script hp =>
    unfold hear at hup ⊢
    split
    · exact ⟨by rwa [if_pos ‹_›] at hup, hn.past⟩
    · exact ⟨by rwa [if_neg ‹_›] at hup, hn.past⟩
  | server _ s stopTested stopCleared h => exact ⟨Hub.accounted_steps h hn.accounted, hn.past⟩
  | replace now =>
    refine ⟨accounted_new _ now, fun log hlog number p hin hpush => ?_⟩
    exact hn.notification (mem_downlink.mpr ⟨log, hlog, number, hin⟩) hpush

/-- What holds along every run. -/
theorem settled_event {n m : Network} {e : Event} (hi : n.Listening ∧ n.Settled)
    (hs : n.step e = some m) : m.Listening ∧ m.Settled :=
  ⟨listening_step (step_happens hs) hi.1, settled_step (step_happens hs) hi.1 hi.2⟩

theorem settled_run {es : List Event} {n : Network} (h : Run.run step new es = some n) :
    n.Listening ∧ n.Settled :=
  Run.run_invariant (P := fun _ _ => True) (I := fun n => n.Listening ∧ n.Settled)
    (fun _ _ _ hi _ hs => settled_event hi hs) ⟨listening_new, settled_new⟩
    (Run.along_true new es) h

/-- Without a new server object there was only the first. -/
theorem past_run {es : List Event} {n : Network} (h : Run.run step new es = some n)
    (hone : ∀ now, .replace now ∉ es) : n.past = [] := by
  have hone' : ∀ e ∈ es, ∀ now, e ≠ .replace now := by
    rintro e he now rfl
    exact hone now he
  refine Run.run_invariant (I := fun n => n.past = []) ?_ rfl (Run.along_of_forall hone' new) h
  intro s e t hs he hst
  cases step_happens hst with
  | client event w he h => exact hs
  | hear packet script hp =>
    unfold hear
    split
    · exact hs
    · exact hs
  | server _ u stopTested stopCleared h => exact hs
  | replace now => exact absurd rfl (he now)

/-- A push that the client has received is a notification of the one server. -/
theorem published_of_heard {n : Network} (hl : n.Listening) (hn : n.Settled) (hone : n.past = [])
    {q : SharedPacket} (hq : q ∈ n.heard) : q.Published n.server.serial n.server.curSeq := by
  obtain ⟨hpush, hdown⟩ := hl.heard q hq
  obtain ⟨log, hlog, number, hin⟩ := mem_downlink.mp hdown
  rw [logs, hone, List.nil_append, List.mem_singleton] at hlog
  exact hn.published (hlog ▸ hin) hpush

/-- The push frames of the client. -/
theorem ack_or_heartbeat {n : Network} (hl : n.Listening) {p : SharedPacket} (hp : p ∈ n.uplink)
    (hpush : p.isPush = true) :
    (∃ draw, p.origin = .heartbeat draw) ∨ ∃ q ∈ n.heard, p.origin = .ack q.origin := by
  rcases hl.wrote p hp with (⟨draw, cmd, horigin⟩ | hbeat) | hack
  · have hpush' : p.origin.isPush = true := p.isPush_eq ▸ hpush
    rw [horigin] at hpush'
    exact absurd hpush' (by simp [Origin.isPush])
  · exact .inl hbeat
  · exact .inr hack

/-- **Only its acknowledgement takes a notification from the list**, or the end of
its tries.  What was put into the list is there, or was taken out by one of the
two.  The frame that took out a notification with a `cmd` other than that of the
heartbeats acknowledges a push of the same `cmd` and `seq` that the client has
received: the same notification, unless `2 ^ 32` were published since. -/
theorem removed_by_ack {es : List Event} {n : Network} (h : Run.run step new es = some n)
    (hone : ∀ now, .replace now ∉ es) {number : Nat} {s : Session}
    (hs : n.server.heap number = some s) :
    (Session.queued (n.sessionLog number)).Perm
      (s.writePackets.map (fun info => info.packet) ++ Session.removed (n.sessionLog number)) ∧
    (∀ info packet, .acked info packet ∈ n.sessionLog number → info.packet.cmd ≠ heartbeatCmd →
      ∃ q ∈ n.heard, packet.origin = .ack q.origin ∧ q.cmd = info.packet.cmd ∧
        q.seq = info.packet.seq ∧ ∃ draw draw' cmd,
          info.packet.origin = .notification n.server.serial draw cmd ∧
          q.origin = .notification n.server.serial draw' cmd ∧
          (n.server.curSeq < draw + 2 ^ 32 → n.server.curSeq < draw' + 2 ^ 32 → draw' = draw)) ∧
    (∀ info, .gaveUp info ∈ n.sessionLog number → info.curTries = Session.maxResendTries ∧
      3 ≤ Session.attempts (n.sessionLog number) info.packet) := by
  obtain ⟨hl, hn⟩ := settled_run h
  have hpast := past_run h hone
  refine ⟨(hn.accounted.accounts number s hs).balance, fun info packet hin hcmd => ?_, fun info hin => ?_⟩
  · obtain ⟨hup, hpush, hcmd', hseq, draw, cmd, horigin, -, hdraw⟩ := hn.accounted.justified hin
    rcases ack_or_heartbeat hl hup hpush with ⟨beat, hbeat⟩ | ⟨q, hq, hack⟩
    · -- a heartbeat has another `cmd`
      have hzero : packet.cmd = heartbeatCmd := by
        rw [SharedPacket.cmd, packet.cmd_eq, hbeat]
        rfl
      exact absurd (hcmd'.symm.trans hzero) hcmd
    · obtain ⟨draw', cmd', horigin', -, hdraw'⟩ := published_of_heard hl hn hpast hq
      have hqcmd : q.cmd = info.packet.cmd := by
        rw [← hcmd', SharedPacket.cmd, SharedPacket.cmd, packet.cmd_eq, q.cmd_eq, hack]
        rfl
      have hqseq : q.seq = info.packet.seq := by
        rw [← hseq, SharedPacket.seq, SharedPacket.seq, packet.seq_eq, q.seq_eq, hack]
        rfl
      have hcmds : cmd' = cmd := by
        have h1 := hqcmd
        rw [SharedPacket.cmd, SharedPacket.cmd, q.cmd_eq, info.packet.cmd_eq, horigin, horigin'] at h1
        exact h1
      have hseqs : draw' % 2 ^ 32 = draw % 2 ^ 32 := by
        have h1 := hqseq
        rw [SharedPacket.seq, SharedPacket.seq, q.seq_eq, info.packet.seq_eq, horigin, horigin'] at h1
        exact congrArg UInt32.toNat h1
      refine ⟨q, hq, hack, hqcmd, hqseq, draw, draw', cmd, horigin, hcmds ▸ horigin', ?_⟩
      intro h1 h2
      exact Counter.eq_of_mod_eq hdraw' hdraw h2 h1 hseqs
  · exact hn.accounted.justified hin

/-- The first heartbeat of a client. -/
def firstHeartbeat : SharedPacket :=
  ⟨Packet.new 0 1 true (buildHeader 0 1 true 0) none 0, .heartbeat 1, rfl, rfl, rfl⟩

/-- The first notification of a server. -/
def firstOf (serial : Nat) : SharedPacket :=
  ⟨Packet.new 5 1 true (buildHeader 5 1 true 0) none 0, .notification serial 1 5, rfl, rfl, rfl⟩

def firstNotification : SharedPacket := firstOf 0

def firstAck : SharedPacket :=
  ⟨Packet.new 5 1 true (buildHeader 5 1 true 0) none 0, .ack (.notification 0 1 5), rfl, rfl, rfl⟩

/-- A notification is published, received and acknowledged. -/
def publishFirst : List Event :=
  connectFirst ++
    [.serverCall (.publishNotification 5 none 0), .clientReceives firstNotification [],
      .sessionReceives 1 firstAck []]

/-- A notification with `cmd` zero is published, and before it arrives the client
sends a heartbeat. -/
def publishZero : List Event :=
  connectFirst ++
    [.serverCall (.publishNotification heartbeatCmd none 0), .client (.advance (seconds 5)),
      .client (.expired 0), .client (.run []), .sessionReceives 1 firstHeartbeat []]

/-- Which notification was taken out, and by what. -/
def acks? : Session.Effect → Option (Origin × Origin)
  | .acked info packet => some (info.packet.origin, packet.origin)
  | _ => none

theorem exists_acked {log : List Session.Effect} {pair : Origin × Origin}
    (h : log.filterMap acks? = [pair]) : ∃ info packet, .acked info packet ∈ log ∧
      info.packet.origin = pair.1 ∧ packet.origin = pair.2 := by
  have hin : pair ∈ log.filterMap acks? := h ▸ List.mem_singleton.mpr rfl
  obtain ⟨effect, heffect, heq⟩ := List.mem_filterMap.mp hin
  cases effect with
  | acked info packet => exact ⟨info, packet, heffect, by rw [← Option.some.inj heq], by
      rw [← Option.some.inj heq]⟩
  | _ => exact absurd heq (by simp [acks?])

/-- The acknowledgement at work. -/
theorem removed_by_ack_first :
    ∃ n, Run.run step new publishFirst = some n ∧ ∃ info packet,
      .acked info packet ∈ n.sessionLog 1 ∧ ∃ q ∈ n.heard, packet.origin = .ack q.origin ∧
        q.cmd = info.packet.cmd ∧ q.seq = info.packet.seq := by
  have hrun : (Run.run step new publishFirst).map (fun n =>
      ((n.server.heap 1).isSome, (n.sessionLog 1).filterMap acks?)) =
      some (true, [(.notification 0 1 5, .ack (.notification 0 1 5))]) := by
    decide +kernel
  obtain ⟨n, hn, heq⟩ := Option.map_eq_some_iff.mp hrun
  obtain ⟨hsome, hacks⟩ := Prod.mk.inj heq
  obtain ⟨s, hs⟩ := Option.isSome_iff_exists.mp hsome
  obtain ⟨info, packet, hin, horigin, -⟩ := exists_acked hacks
  have hcmd : info.packet.cmd ≠ heartbeatCmd := by
    rw [SharedPacket.cmd, info.packet.cmd_eq, horigin]
    decide
  obtain ⟨-, hack, -⟩ := removed_by_ack hn (by simp [publishFirst, connectFirst]) hs
  obtain ⟨q, hq, h1, h2, h3, -⟩ := hack info packet hin hcmd
  exact ⟨n, hn, info, packet, hin, q, hq, h1, h2, h3⟩

/-- **A heartbeat takes out a notification with `cmd` zero**, which the client has
not received. -/
theorem removed_by_heartbeat :
    ∃ n, Run.run step new publishZero = some n ∧ n.heard = [] ∧ ∃ info packet,
      .acked info packet ∈ n.sessionLog 1 ∧
        info.packet.origin = .notification 0 1 heartbeatCmd ∧ packet.origin = .heartbeat 1 := by
  have hrun : (Run.run step new publishZero).map (fun n =>
      (n.heard, (n.sessionLog 1).filterMap acks?)) =
      some ([], [(.notification 0 1 heartbeatCmd, .heartbeat 1)]) := by
    decide +kernel
  obtain ⟨n, hn, heq⟩ := Option.map_eq_some_iff.mp hrun
  obtain ⟨hheard, hacks⟩ := Prod.mk.inj heq
  obtain ⟨info, packet, hin, h1, h2⟩ := exists_acked hacks
  exact ⟨n, hn, hheard, info, packet, hin, h1, h2⟩

end Network

end Ibase
