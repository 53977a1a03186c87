import Ibase.Lib.Counter
import Ibase.Lib.Ledger
import Ibase.World

/-!
# The book of requests

What happens to a request is spread over the queue of posted tasks, the list
`write_packets_` and what the user was told.  `Book` collects it, and `Book.Step`
is everything the client does to it: eleven kinds of entries.  The book stays
balanced (`Good.step`): every request that was accepted stands in one place of it.

Requests are told apart by the call that made their packet and by the number of
their send id, both unbounded; the 32-bit fields are the residues.
-/

namespace Ibase

open Relation Counter

/-- The number that gave a packet its `seq`, if the client or a server drew one. -/
def Origin.draw : Origin → Nat
  | request draw _ => draw
  | heartbeat draw => draw
  | notification _ draw _ => draw
  | received .. => 0
  | ack _ => 0
  | response .. => 0

/-- A request that was accepted. -/
structure Request where
  origin : Origin
  sendDraw : Nat
  deriving DecidableEq, Repr

def SendingPacketInfo.request (info : SendingPacketInfo) : Request :=
  ⟨info.packet.origin, info.sendDraw⟩

/-- Where a request is. -/
inductive Status where
  | posted
  | queued
  | completed (result : Int)
  | cancelled
  | dropped
  deriving DecidableEq, Repr

/-- What the requests are about: the calls that are not finished, what they
accepted, what of it is posted, queued or ended, and what the user was told. -/
structure Book where
  calls : List SendCall
  accepted : List Request
  posted : List Request
  queue : List SendingPacketInfo
  ended : List (Status × Request)
  callbacks : List (SendingPacketInfo × Int × SharedPacket)
  packets : List Packet
  curSeq : Nat
  curSendId : Nat

namespace Book

/-- Every place where a request is. -/
def ledger (b : Book) : List (Status × Request) :=
  b.posted.map (fun r => (.posted, r)) ++ (b.queue.map (fun info => (.queued, info.request)) ++
    b.ended)

/-- What the client does. -/
inductive Step : Book → Book → Prop
  | drawSeq (b : Book) : Step b { b with curSeq := b.curSeq + 1 }
  | call (b : Book) (call : SendCall) (cmd : UInt32)
      (h : call.packet.origin = .request (b.curSeq + 1) cmd) (hid : call.sendDraw = none) :
      Step b { b with curSeq := b.curSeq + 1, calls := b.calls ++ [call] }
  | drawId (b : Book) (i : Nat) (call : SendCall) (h : b.calls[i]? = some call)
      (hid : call.sendDraw = none) :
      Step b { b with
        curSendId := b.curSendId + 1
        calls := b.calls.set i { call with sendDraw := some (b.curSendId + 1) } }
  | post (b : Book) (i : Nat) (call : SendCall) (sendDraw : Nat) (h : b.calls[i]? = some call)
      (hid : call.sendDraw = some sendDraw) :
      Step b { b with
        calls := b.calls.eraseIdx i
        accepted := b.accepted ++ [⟨call.packet.origin, sendDraw⟩]
        posted := b.posted ++ [⟨call.packet.origin, sendDraw⟩] }
  | accept (b : Book) (origin : Origin) (cmd : UInt32) (h : origin = .request (b.curSeq + 1) cmd) :
      Step b { b with
        curSeq := b.curSeq + 1
        curSendId := b.curSendId + 1
        accepted := b.accepted ++ [⟨origin, b.curSendId + 1⟩]
        posted := b.posted ++ [⟨origin, b.curSendId + 1⟩] }
  | enqueue (b : Book) (info : SendingPacketInfo) (rest : List Request)
      (h : b.posted = info.request :: rest) :
      Step b { b with posted := rest, queue := b.queue ++ [info] }
  | receive (b : Book) (packet : Packet) : Step b { b with packets := b.packets ++ [packet] }
  | answer (b : Book) (it : SendingPacketInfo) (packet : SharedPacket)
      (h : b.queue.find? (Ctx.matchesPacket packet) = some it) (hpush : packet.isPush = false)
      (hin : packet.packet ∈ b.packets) :
      Step b { b with
        queue := b.queue.eraseP (Ctx.matchesPacket packet)
        ended := b.ended ++ [(.completed 0, it.request)]
        callbacks := b.callbacks ++ [(it, 0, packet)] }
  | resend (b : Book) (visited rest : List SendingPacketInfo) (it sent : SendingPacketInfo)
      (h : b.queue = visited ++ it :: rest) (hsent : sent.request = it.request) :
      Step b { b with queue := visited ++ sent :: rest }
  | giveUp (b : Book) (visited rest : List SendingPacketInfo) (it : SendingPacketInfo)
      (h : b.queue = visited ++ it :: rest) :
      Step b { b with
        queue := visited ++ rest
        ended := b.ended ++ [(.completed (-1), it.request)]
        callbacks := b.callbacks ++ [(it, -1, it.packet.toSharedPacket)] }
  | cancel (b : Book) (sendId : UInt32) (it : SendingPacketInfo)
      (h : b.queue.find? (fun it => it.sendId == sendId) = some it) :
      Step b { b with
        queue := b.queue.eraseP (fun it => it.sendId == sendId)
        ended := b.ended ++ [(.cancelled, it.request)] }
  | dropAll (b : Book) :
      Step b { b with
        queue := [], ended := b.ended ++ b.queue.map (fun info => (.dropped, info.request)) }

/-- The books say of every call of a callback what it was for. -/
def Answered (b : Book) : Prop :=
  ∀ info result packet, (info, result, packet) ∈ b.callbacks →
    (result = 0 ∧ packet.isPush = false ∧ packet.cmd = info.packet.cmd ∧
      packet.seq = info.packet.seq ∧ packet.packet ∈ b.packets) ∨
    (result = -1 ∧ packet = info.packet.toSharedPacket)

/-- The invariant. -/
structure Good (b : Book) : Prop where
  balance : b.accepted.Perm (b.ledger.map Prod.snd)
  seqs : Drawn b.curSeq (b.accepted.map (fun r => r.origin.draw) ++
    b.calls.map (fun call => call.packet.origin.draw))
  sendIds : Drawn b.curSendId (b.accepted.map (fun r => r.sendDraw) ++
    b.calls.filterMap (fun call => call.sendDraw))
  answered : b.Answered

/-! ### What a step keeps -/

theorem map_snd_ledger (b : Book) : b.ledger.map Prod.snd =
    b.posted ++ (b.queue.map SendingPacketInfo.request ++ b.ended.map Prod.snd) := by
  simp [ledger, Function.comp_def]

theorem answered_append {b : Book} (h : b.Answered) {c : SendingPacketInfo × Int × SharedPacket}
    (hc : (c.2.1 = 0 ∧ c.2.2.isPush = false ∧ c.2.2.cmd = c.1.packet.cmd ∧
      c.2.2.seq = c.1.packet.seq ∧ c.2.2.packet ∈ b.packets) ∨
      (c.2.1 = -1 ∧ c.2.2 = c.1.packet.toSharedPacket)) :
    Answered { b with callbacks := b.callbacks ++ [c] } := by
  intro info result packet hin
  rcases List.mem_append.mp hin with hin | hin
  · exact h info result packet hin
  · rw [← List.mem_singleton.mp hin] at hc
    exact hc

theorem balance_iff (b : Book) : b.accepted.Perm (b.ledger.map Prod.snd) ↔
    b.accepted.Perm (b.posted ++ b.queue.map SendingPacketInfo.request ++ b.ended.map Prod.snd) := by
  rw [map_snd_ledger, List.append_assoc]

theorem balance_end {b : Book} (h : b.accepted.Perm (b.ledger.map Prod.snd))
    {queue : List SendingPacketInfo} {it : SendingPacketInfo} (hq : b.queue.Perm (it :: queue))
    (s : Status) :
    b.accepted.Perm
      ((ledger { b with queue := queue, ended := b.ended ++ [(s, it.request)] }).map Prod.snd) := by
  have hx := ((hq.map SendingPacketInfo.request).append_left b.posted).trans List.perm_middle
  have hgo := Ledger.go ((balance_iff b).mp h) hx
  rw [map_snd_ledger, ← List.append_assoc, List.map_append]
  exact hgo

theorem balance_accept {b : Book} (h : b.accepted.Perm (b.ledger.map Prod.snd)) (r : Request) :
    (b.accepted ++ [r]).Perm ((ledger { b with posted := b.posted ++ [r] }).map Prod.snd) := by
  have hcome := Ledger.come ((balance_iff b).mp h) r
  rw [map_snd_ledger, ← List.append_assoc]
  refine hcome.trans (List.Perm.append_right _ ?_)
  rw [List.append_assoc, List.append_assoc]
  exact List.perm_append_comm.append_left b.posted

theorem balance_enqueue {b : Book} (h : b.accepted.Perm (b.ledger.map Prod.snd))
    {info : SendingPacketInfo} {rest : List Request} (hp : b.posted = info.request :: rest) :
    b.accepted.Perm
      ((ledger { b with posted := rest, queue := b.queue ++ [info] }).map Prod.snd) := by
  rw [balance_iff, hp] at h
  rw [map_snd_ledger, List.map_append, ← List.append_assoc, ← List.append_assoc]
  exact h.trans (List.Perm.append_right _ (List.perm_append_singleton info.request _).symm)

theorem balance_resend {b : Book} (h : b.accepted.Perm (b.ledger.map Prod.snd))
    {visited rest : List SendingPacketInfo} {it sent : SendingPacketInfo}
    (hq : b.queue = visited ++ it :: rest) (hsent : sent.request = it.request) :
    b.accepted.Perm ((ledger { b with queue := visited ++ sent :: rest }).map Prod.snd) := by
  rw [map_snd_ledger] at h ⊢
  rw [hq] at h
  simpa only [List.map_append, List.map_cons, hsent] using h

theorem balance_drop {b : Book} (h : b.accepted.Perm (b.ledger.map Prod.snd)) :
    b.accepted.Perm ((ledger { b with
      queue := [], ended := b.ended ++ b.queue.map (fun info => (.dropped, info.request)) }).map
        Prod.snd) := by
  rw [map_snd_ledger] at h ⊢
  refine h.trans (List.Perm.append_left _ ?_)
  simp only [List.map_nil, List.nil_append, List.map_append, List.map_map, Function.comp_def]
  exact List.perm_append_comm

/-- **Every step keeps the books.** -/
theorem Good.step {b b' : Book} (h : b.Good) (hs : Step b b') : b'.Good := by
  obtain ⟨hbal, hseqs, hids, hans⟩ := h
  cases hs with
  | drawSeq =>
    exact ⟨hbal, hseqs.mono (Nat.le_succ _), hids, hans⟩
  | call call cmd h hid =>
    refine ⟨hbal, ?_, ?_, hans⟩
    · refine hseqs.next.perm ?_
      have hdraw : call.packet.origin.draw = b.curSeq + 1 := by
        rw [h]
        rfl
      rw [List.map_append, ← List.append_assoc, List.map_singleton, hdraw]
      exact List.perm_append_singleton _ _
    · refine hids.perm (List.Perm.of_eq ?_)
      rw [List.filterMap_append, List.filterMap_cons_none hid, List.filterMap_nil, List.append_nil]
  | drawId i call h hid =>
    obtain ⟨hi, hget⟩ := List.getElem?_eq_some_iff.mp h
    have hset := List.set_perm_cons_eraseIdx hi { call with sendDraw := some (b.curSendId + 1) }
    have hold := List.getElem_cons_eraseIdx_perm hi
    rw [hget] at hold
    refine ⟨hbal, ?_, ?_, hans⟩
    · refine hseqs.perm (List.Perm.append_left _ ((hset.map _).trans ?_))
      exact (hold.map (fun call => call.packet.origin.draw))
    · refine hids.next.perm ?_
      have h1 : (List.filterMap (fun call : SendCall => call.sendDraw) _).Perm
          ((b.curSendId + 1) :: (b.calls.eraseIdx i).filterMap (fun call => call.sendDraw)) :=
        hset.filterMap (fun call => call.sendDraw)
      have h2 := hold.filterMap (fun call => call.sendDraw)
      rw [List.filterMap_cons_none hid] at h2
      exact (List.Perm.append_left _ (h1.trans (h2.cons _))).trans List.perm_middle
  | post i call sendDraw h hid =>
    obtain ⟨hi, hget⟩ := List.getElem?_eq_some_iff.mp h
    have hold := List.getElem_cons_eraseIdx_perm hi
    rw [hget] at hold
    refine ⟨balance_accept hbal _, ?_, ?_, hans⟩
    · refine hseqs.perm ?_
      have h1 := hold.map (fun call : SendCall => call.packet.origin.draw)
      rw [List.map_append, List.append_assoc]
      exact List.Perm.append_left _ h1
    · refine hids.perm ?_
      have h1 := hold.filterMap (fun call : SendCall => call.sendDraw)
      rw [List.filterMap_cons_some hid] at h1
      rw [List.map_append, List.append_assoc]
      exact List.Perm.append_left _ h1
  | accept origin cmd h =>
    refine ⟨balance_accept hbal _, ?_, ?_, hans⟩
    · refine hseqs.next.perm ?_
      rw [List.map_append, List.map_singleton, List.append_assoc, h]
      exact List.perm_middle
    · refine hids.next.perm ?_
      rw [List.map_append, List.map_singleton, List.append_assoc]
      exact List.perm_middle
  | enqueue info rest h => exact ⟨balance_enqueue hbal h, hseqs, hids, hans⟩
  | receive packet =>
    refine ⟨hbal, hseqs, hids, fun info result p hin => ?_⟩
    exact (hans info result p hin).imp_left
      (fun ⟨h1, h2, h3, h4, h5⟩ => ⟨h1, h2, h3, h4, List.mem_append_left _ h5⟩)
  | answer it packet h hpush hin =>
    refine ⟨balance_end hbal (Ledger.perm_cons_eraseP h) _, hseqs, hids,
      answered_append hans (.inl ?_)⟩
    have hmatch := List.find?_some h
    obtain ⟨hcmd, hseq⟩ : _ ∧ _ := by simpa [Ctx.matchesPacket] using hmatch
    exact ⟨rfl, hpush, hcmd.symm, hseq.symm, hin⟩
  | resend visited rest it sent h hsent =>
    exact ⟨balance_resend hbal h hsent, hseqs, hids, hans⟩
  | giveUp visited rest it h =>
    have hperm : b.queue.Perm (it :: (visited ++ rest)) := by
      rw [h]
      exact List.perm_middle
    exact ⟨balance_end hbal hperm _, hseqs, hids,
      answered_append hans (.inr ⟨rfl, rfl⟩)⟩
  | cancel sendId it h =>
    exact ⟨balance_end hbal (Ledger.perm_cons_eraseP h) _, hseqs, hids, hans⟩
  | dropAll => exact ⟨balance_drop hbal, hseqs, hids, hans⟩

theorem Good.steps {b b' : Book} (h : b.Good) (hs : ReflTransGen Step b b') : b'.Good := by
  induction hs with
  | refl => exact h
  | tail _ hstep ih => exact ih.step hstep

/-! ### What the books say -/

theorem Good.nodup {b : Book} (h : b.Good) : b.accepted.Nodup :=
  List.Nodup.of_map _ (List.Nodup.of_append_left h.sendIds.nodup)

/-- **Every accepted request is in one place.** -/
theorem Good.one_place {b : Book} (h : b.Good) {r : Request} (hr : r ∈ b.accepted) :
    ∃ s, b.ledger.count (s, r) = 1 ∧ ∀ s', (s', r) ∈ b.ledger → s' = s := by
  have hnodup : (b.ledger.map Prod.snd).Nodup := h.balance.nodup_iff.mp h.nodup
  obtain ⟨⟨s, r'⟩, hin, rfl⟩ := List.mem_map.mp (h.balance.mem_iff.mp hr)
  refine ⟨s, List.count_eq_one_of_mem (List.Nodup.of_map _ hnodup) hin, fun s' hin' => ?_⟩
  exact congrArg Prod.fst (List.inj_on_of_nodup_map hnodup hin' hin rfl)

/-- Numbers that the accepted requests have drawn, those that are queued have. -/
theorem Good.drawn_queue {b : Book} (h : b.Good) {cur : Nat} {f : Request → Nat} {ns : List Nat}
    (hd : Drawn cur (b.accepted.map f ++ ns)) :
    Drawn cur (b.queue.map (fun info => f info.request)) := by
  have hacc : Drawn cur (b.accepted.map f) := hd.sublist (List.sublist_append_left ..)
  have hall := hacc.perm (h.balance.map f).symm
  rw [map_snd_ledger, List.map_append, List.map_append, List.map_map] at hall
  exact (hall.sublist (List.sublist_append_right ..)).sublist (List.sublist_append_left ..)

/-- Pending requests have different numbers `seq`, as long as fewer than `2 ^ 32`
have been drawn since the oldest of them. -/
theorem Good.nodup_seq {b : Book} (h : b.Good)
    (hw : ∀ info ∈ b.queue, b.curSeq < info.packet.origin.draw + 2 ^ 32) :
    (b.queue.map (fun info => info.packet.seq)).Nodup := by
  have hdrawn := h.drawn_queue (f := fun r => r.origin.draw) h.seqs
  refine hdrawn.nodup_map hw fun info _ => ?_
  obtain ⟨draw, cmd, horigin⟩ := info.packet.isRequest
  show info.packet.packet.seq.toNat = info.packet.origin.draw % 2 ^ 32
  rw [info.packet.seq_eq, horigin]
  rfl

theorem Good.nodup_sendId {b : Book} (h : b.Good)
    (hw : ∀ info ∈ b.queue, b.curSendId < info.sendDraw + 2 ^ 32) :
    (b.queue.map SendingPacketInfo.sendId).Nodup := by
  have hdrawn := h.drawn_queue (f := fun r => r.sendDraw) h.sendIds
  exact hdrawn.nodup_map hw fun _ _ => rfl

end Book

end Ibase
