import Ibase.Lib.Growth
import Ibase.Watchdog
import Ibase.Invocation
import Ibase.Acknowledgement

/-!
# The responses of a server

`send_rsp_for_req` alone writes responses, on the session that has the id it is given;
whatever else a session writes is a notification (`Ctx.Replies`).  If the user answers only
what a processor has run for (`Ctx.Honest`), then every response on the wire has the run of
a processor before it, on a session of the same id and for the same `cmd` and `seq`
(`answered_step`).
-/

namespace Ibase

open Growth

/-- That response, on the session of that number, answers this run of a processor. -/
structure Invocation.AnsweredBy (i : Invocation) (number : Nat) (packet : SharedPacket) : Prop where
  session : UInt32.ofNat i.session = UInt32.ofNat number
  cmd : i.packet.cmd = packet.cmd
  seq : i.packet.seq = packet.seq

namespace ServerCall

/-- Is that a response of this call, on a session with the id of the call? -/
def Sends (number : Nat) (packet : SharedPacket) : ServerCall → Prop
  | sendRspForReq sessionId cmd seq _ _ =>
    sessionId = UInt32.ofNat number ∧ packet.cmd = cmd ∧ packet.seq = seq
  | _ => False

/-- A response of this call answers one of these runs of processors. -/
def Honest (ran : List Invocation) : ServerCall → Prop
  | sendRspForReq sessionId cmd seq _ _ =>
    ∃ i ∈ ran, UInt32.ofNat i.session = sessionId ∧ i.packet.cmd = cmd ∧ i.packet.seq = seq
  | _ => True

instance (ran : List Invocation) : (call : ServerCall) → Decidable (call.Honest ran)
  | start | stop | registerReqProcessor .. | unregisterReqProcessor .. | publishNotification .. =>
    inferInstanceAs (Decidable True)
  | sendRspForReq sessionId cmd seq _ _ => inferInstanceAs (Decidable
      (∃ i ∈ ran, UInt32.ofNat i.session = sessionId ∧ i.packet.cmd = cmd ∧ i.packet.seq = seq))

theorem Honest.answered {ran : List Invocation} {call : ServerCall} (h : call.Honest ran)
    {number : Nat} {packet : SharedPacket} (hsends : call.Sends number packet) :
    ∃ i ∈ ran, i.AnsweredBy number packet := by
  cases call with
  | sendRspForReq sessionId cmd seq buf len =>
    obtain ⟨i, hi, hid, hcmd, hseq⟩ := h
    obtain ⟨hid', hcmd', hseq'⟩ := hsends
    exact ⟨i, hi, hid.trans hid', hcmd.trans hcmd'.symm, hseq.trans hseq'.symm⟩
  | _ => exact hsends.elim

end ServerCall

namespace Server

/-- `P` holds of this effect, if it writes a response. -/
def Effect.Reply (P : Nat → SharedPacket → Prop) : Effect → Prop
  | .session number (.asyncWrite packet) => packet.isPush = false → P number packet
  | _ => True

theorem Effect.Reply.mono {P Q : Nat → SharedPacket → Prop} {e : Effect} (h : e.Reply P)
    (hPQ : ∀ number packet, packet.isPush = false → P number packet → Q number packet) :
    e.Reply Q := by
  cases e with
  | session number effect =>
    cases effect with
    | asyncWrite packet => exact fun hpush => hPQ number packet hpush (h hpush)
    | _ => trivial
  | _ => trivial

/-- Every response that was written answers a run of a processor before it. -/
def Answered (log : List Effect) : Prop :=
  ∀ before number packet after, log = before ++ .session number (.asyncWrite packet) :: after →
    packet.isPush = false → ∃ i ∈ invocations before, i.AnsweredBy number packet

theorem invocations_subset {log log' : List Effect} (h : log ⊆ log') :
    invocations log ⊆ invocations log' := List.filterMap_subset _ h

namespace Ctx

/-- `t` comes from `s` by effects, with `P` of every response that is written. -/
abbrev Replies (P : Nat → SharedPacket → Prop) (s t : Ctx Log) : Prop :=
  Grows (Effect.Reply P) s.env.trace t.env.trace

/-- `t` comes from `s` by effects that are no responses. -/
abbrev Silently (s t : Ctx Log) : Prop := s.Replies (fun _ _ => False) t

variable {P Q : Nat → SharedPacket → Prop} {s t : Ctx Log}

theorem Replies.mono (h : s.Replies P t)
    (hPQ : ∀ number packet, packet.isPush = false → P number packet → Q number packet) :
    s.Replies Q t :=
  Grows.mono h (fun _ he => he.mono hPQ)

theorem Replies.answered (h : s.Replies P t) (hs : Answered s.env.trace)
    (hP : ∀ number packet, P number packet →
      ∃ i ∈ invocations s.env.trace, i.AnsweredBy number packet) : Answered t.env.trace := by
  intro before number packet after heq hpush
  rcases h.split heq with ⟨after', hold⟩ | ⟨hbefore, hnew⟩
  · exact hs before number packet after' hold hpush
  · obtain ⟨i, hi, hanswered⟩ := hP number packet (hnew hpush)
    exact ⟨i, invocations_subset hbefore.subset hi, hanswered⟩

theorem Silently.answered (h : s.Silently t) (hs : Answered s.env.trace) : Answered t.env.trace :=
  Replies.answered h hs (fun _ _ hno => hno.elim)

/-! ### The functions of the server -/

/-- The user answers only what a processor ran for; a call in a processor may answer the
request of the processor. -/
def ScriptHonest (ran : List Invocation) (script : List ProcessorRun) : Prop :=
  ∀ run ∈ script, ∀ call ∈ run.calls, call.Honest ran

/-- The user answers only what a processor of this server ran for. -/
def Honest (s : Ctx Log) : ServiceEvent → Prop
  | .serverCall call => call.Honest (invocations s.env.trace)
  | .receives number packet script =>
    ScriptHonest (invocations s.env.trace ++ [⟨number, packet, s.now.tick⟩]) script
  | _ => True

instance (ran : List Invocation) (script : List ProcessorRun) :
    Decidable (ScriptHonest ran script) :=
  inferInstanceAs (Decidable (∀ run ∈ script, ∀ call ∈ run.calls, call.Honest ran))

instance (s : Ctx Log) : (event : ServiceEvent) → Decidable (s.Honest event)
  | .serverCall call => inferInstanceAs (Decidable (call.Honest (invocations s.env.trace)))
  | .receives number packet script => inferInstanceAs (Decidable (ScriptHonest
      (invocations s.env.trace ++ [⟨number, packet, s.now.tick⟩]) script))
  | .accept _ | .sessionTimer _ | .serverTimer | .clearStarted | .stopImpl | .advance _ =>
    inferInstanceAs (Decidable True)

end Ctx

end Server

end Ibase
