import Ibase.Acknowledgement
import Ibase.Codec
import Ibase.Service

/-!
# A notification for every session

`publish_notification_impl` builds the packet anew for each entry of `sessions_` and
puts it into the list of the entry's session.  `build_packet` refuses the same body
every time, and `publish_notification_impl` does not look at what `send_packet`
returns, so that it returns `true` also when no session has got anything
(`Ctx.publish_refused`).  For which bodies it does all or nothing is `allOrNothing_iff`.
-/

namespace Ibase

/-- `buf[0, len)`, or as many zeros for a null pointer. -/
def bodyBytes (buf : Option (List UInt8)) (len : UInt32) : List UInt8 :=
  match buf with
  | some buf => buf.take len.toNat
  | none => List.replicate len.toNat 0

theorem length_bodyBytes_le (buf : Option (List UInt8)) (len : UInt32) :
    (bodyBytes buf len).length ≤ len.toNat := by
  cases buf with
  | none => exact Nat.le_of_eq List.length_replicate
  | some buf => exact List.length_take_le ..

/-- Without a wrap of the length the whole packet is written. -/
theorem wire_new (cmd seq : UInt32) (isPush : Bool) (header : PacketHeader)
    (buf : Option (List UInt8)) {len : UInt32} (h : 15 + len.toNat < 2 ^ 32) :
    (Packet.new cmd seq isPush header buf len).wire = header.bytes ++ bodyBytes buf len := by
  have hlen : (headerLength + len).toNat = 15 + len.toNat := by
    rw [UInt32.toNat_add, headerLength_toNat]
    exact Nat.mod_eq_of_lt h
  have hbody := length_bodyBytes_le buf len
  show (header.bytes ++ bodyBytes buf len).take (headerLength + len).toNat = _
  rw [hlen, List.take_of_length_le]
  rw [List.length_append, PacketHeader.length_bytes]
  omega

theorem length_wire_new (cmd seq : UInt32) (isPush : Bool) (header : PacketHeader)
    (buf : Option (List UInt8)) {len : UInt32} (h : 2 ^ 32 ≤ 15 + len.toNat) :
    (Packet.new cmd seq isPush header buf len).wire.length < 15 := by
  have hlen : (headerLength + len).toNat < 15 := by
    have hlt : len.toNat < 2 ^ 32 := len.toNat_lt
    rw [UInt32.toNat_add, headerLength_toNat]
    omega
  exact Nat.lt_of_le_of_lt (List.length_take_le _ _) hlen

namespace SharedPacket

theorem packet_of_build {origin : Origin} {buf : Option (List UInt8)} {len : UInt32}
    {p : SharedPacket} (h : build origin buf len = some p) :
    buildPacket origin.cmd origin.seq origin.isPush buf len = some p.packet := by
  rw [build] at h
  split at h
  · cases h
  · rename_i packet hpacket
    rw [← Option.some.inj h]
    exact hpacket

theorem new_of_build {origin : Origin} {buf : Option (List UInt8)} {len : UInt32}
    {p : SharedPacket} (h : build origin buf len = some p) :
    p.packet = Packet.new origin.cmd origin.seq origin.isPush
      (buildHeader origin.cmd origin.seq origin.isPush len) buf len := by
  have hpacket := packet_of_build h
  rw [buildPacket] at hpacket
  split at hpacket
  · cases hpacket
  · exact (Option.some.inj hpacket).symm

theorem build_isSome_iff {origin : Origin} {buf : Option (List UInt8)} {len : UInt32} :
    (build origin buf len).isSome ↔ 15 + len.toNat ≤ 16369 ∨ 2 ^ 32 ≤ 15 + len.toNat := by
  have hpacket : (build origin buf len).isSome =
      (buildPacket origin.cmd origin.seq origin.isPush buf len).isSome := by
    rw [build]
    split
    · rename_i hnone
      rw [hnone]
      rfl
    · rename_i packet hsome
      exact (congrArg Option.isSome hsome).symm
  rw [hpacket]
  exact buildPacket_isSome_iff

end SharedPacket

/-- Does the entry carry this notification, from the header to the last byte? -/
structure Session.SendingPacketInfo.Carries (info : Session.SendingPacketInfo) (cmd seq : UInt32)
    (buf : Option (List UInt8)) (len : UInt32) : Prop where
  cmd_eq : info.packet.cmd = cmd
  seq_eq : info.packet.seq = seq
  wire_eq : info.packet.packet.wire = (buildHeader cmd seq true len).bytes ++ bodyBytes buf len

namespace Server

/-- The `seq` of every publish so far: each has drawn one number.  What is in a list is
among them (`Ctx.usedSeqs_of_run`). -/
def usedSeqs (s : Server) : List UInt32 := (List.range s.curSeq).map (fun n => UInt32.ofNat (n + 1))

/-- The next number is a new `seq`, in the first turn of the counter. -/
theorem fresh_seq {s : Server} (h : s.curSeq + 1 < 2 ^ 32) :
    UInt32.ofNat (s.curSeq + 1) ∉ s.usedSeqs := by
  intro hin
  obtain ⟨n, hn, heq⟩ := List.mem_map.mp hin
  have hlt : n < s.curSeq := List.mem_range.mp hn
  have hnat : (n + 1) % 2 ^ 32 = (s.curSeq + 1) % 2 ^ 32 := by
    have := congrArg UInt32.toNat heq
    rwa [UInt32.toNat_ofNat', UInt32.toNat_ofNat'] at this
  rw [Nat.mod_eq_of_lt (by omega), Nat.mod_eq_of_lt h] at hnat
  omega

theorem mem_usedSeqs {s : Server} {p : SharedPacket} (h : p.Published s.serial s.curSeq) :
    p.seq ∈ s.usedSeqs := by
  obtain ⟨draw, cmd, horigin, hpos, hle⟩ := h
  have hseq : p.seq = UInt32.ofNat draw := by
    rw [SharedPacket.seq, p.seq_eq, horigin]
    rfl
  refine List.mem_map.mpr ⟨draw - 1, List.mem_range.mpr (by omega), ?_⟩
  rw [hseq, Nat.sub_add_cancel hpos]

namespace Ctx

variable {E : Type}

/-! ### What `sessions_` finds -/

theorem Housed.nodup_numbers {s : Ctx E} (h : s.Housed) :
    (s.sessions.map (fun p => p.2.session)).Nodup := by
  have hroll : s.roll.Nodup := List.Nodup.of_map Prod.fst h.nodup
  have hnumbers : (s.roll.map Prod.snd).Nodup := by
    refine hroll.map_on (fun a ha b hb heq => ?_)
    have hid : some a.1 = some b.1 := by rw [← h.ids a ha, ← h.ids b hb, heq]
    exact Prod.ext (Option.some.inj hid) heq
  rwa [Ctx.roll, List.map_map] at hnumbers

theorem Housed.getSession {s : Ctx E} (h : s.Housed) {p : UInt32 × SessionInfo}
    (hp : p ∈ s.sessions) : s.getSession p.1 = some p.2.session := by
  obtain ⟨before, after, hsplit⟩ := List.append_of_mem hp
  have hkeys := h.nodup
  rw [Ctx.roll, List.map_map, hsplit, List.map_append, List.nodup_append] at hkeys
  have hlookup : s.sessions.lookup p.1 = some p.2 := by
    refine List.lookup_eq_some_iff.mpr ⟨before, after, hsplit, fun q hq => ?_⟩
    have hne := hkeys.2.2 q.1 (List.mem_map_of_mem hq) p.1 List.mem_cons_self
    exact bne_iff_ne.mpr (Ne.symm hne)
  rw [Ctx.getSession, hlookup]
  rfl

/-! ### One session -/

variable [Platform Effect E]

theorem onSession_sendPacket {s : Ctx E} {number : Nat} {session : Session}
    (h : s.heap number = some session) {packet : SharedPacket} (hpush : packet.isPush = true) :
    ∃ env, s.onSession number (fun t => t.sendPacket packet) =
      { s with
        heap := Function.update s.heap number
          (some { session with writePackets := session.writePackets ++ [⟨packet, 1, s.now⟩] })
        env := env } := by
  rw [onSession, h]
  simp only
  rw [Session.Ctx.sendPacket, if_pos hpush, session_doWritePacket, whole]
  simp only [perform_around]
  exact ⟨_, rfl⟩

/-- One round of the loop of `publish_notification_impl`. -/
def publishTo (origin : Origin) (buf : Option (List UInt8)) (len : UInt32) (s : Ctx E)
    (p : UInt32 × SessionInfo) : Ctx E :=
  match s.heap p.2.session with
  | none => s
  | some session => (s.sendPacket session.sessionId origin buf len).2

theorem publishNotificationImpl_eq (s : Ctx E) (cmd : UInt32) (buf : Option (List UInt8))
    (len : UInt32) : s.publishNotificationImpl cmd buf len =
      (true, s.sessions.foldl (publishTo (.notification s.serial (s.curSeq + 1) cmd) buf len)
        { s with curSeq := s.curSeq + 1 }) := rfl

theorem publishTo_refused {origin : Origin} {buf : Option (List UInt8)} {len : UInt32}
    (h : SharedPacket.build origin buf len = none) (s : Ctx E) (p : UInt32 × SessionInfo) :
    publishTo origin buf len s p = s := by
  rw [publishTo]
  split
  · rfl
  · rw [sendPacket, h]

theorem foldl_publishTo_refused {origin : Origin} {buf : Option (List UInt8)} {len : UInt32}
    (h : SharedPacket.build origin buf len = none) (ps : List (UInt32 × SessionInfo)) (s : Ctx E) :
    ps.foldl (publishTo origin buf len) s = s := by
  induction ps generalizing s with
  | nil => rfl
  | cons p ps ih =>
    rw [List.foldl_cons, publishTo_refused h, ih]

theorem publishTo_sent {origin : Origin} {buf : Option (List UInt8)} {len : UInt32}
    {packet : SharedPacket} (h : SharedPacket.build origin buf len = some packet)
    (hpush : packet.isPush = true) {s : Ctx E} {p : UInt32 × SessionInfo}
    (hget : s.getSession p.1 = some p.2.session) (hid : s.sessionIdAt p.2.session = some p.1) :
    ∃ session env, s.heap p.2.session = some session ∧ publishTo origin buf len s p =
      { s with
        heap := Function.update s.heap p.2.session
          (some { session with writePackets := session.writePackets ++ [⟨packet, 1, s.now⟩] })
        env := env } := by
  obtain ⟨session, hsession, hsid⟩ := exists_session hid
  obtain ⟨env, hsend⟩ := onSession_sendPacket hsession hpush
  refine ⟨session, env, hsession, ?_⟩
  have hround : s.sendPacket session.sessionId origin buf len =
      (true, s.onSession p.2.session (fun t => t.sendPacket packet)) := by
    rw [sendPacket, h, hsid]
    simp only
    rw [hget]
  rw [publishTo, hsession]
  simp only
  rw [hround, hsend]

/-- **Every entry of the list gets the packet once.** -/
theorem foldl_publishTo_sent {origin : Origin} {buf : Option (List UInt8)} {len : UInt32}
    {packet : SharedPacket} (h : SharedPacket.build origin buf len = some packet)
    (hpush : packet.isPush = true) (ps : List (UInt32 × SessionInfo)) {s : Ctx E}
    (hget : ∀ p ∈ ps, s.getSession p.1 = some p.2.session)
    (hid : ∀ p ∈ ps, s.sessionIdAt p.2.session = some p.1)
    (hdistinct : (ps.map (fun p => p.2.session)).Nodup) :
    (∀ number, number ∉ ps.map (fun p => p.2.session) →
      (ps.foldl (publishTo origin buf len) s).heap number = s.heap number) ∧
    ∀ p ∈ ps, ∃ session, s.heap p.2.session = some session ∧
      (ps.foldl (publishTo origin buf len) s).heap p.2.session =
        some { session with writePackets := session.writePackets ++ [⟨packet, 1, s.now⟩] } := by
  induction ps generalizing s with
  | nil => exact ⟨fun _ _ => rfl, fun p hp => absurd hp List.not_mem_nil⟩
  | cons p ps ih =>
    obtain ⟨session, env, hsession, hround⟩ :=
      publishTo_sent h hpush (hget p List.mem_cons_self) (hid p List.mem_cons_self)
    obtain ⟨hnot, hrest⟩ := List.nodup_cons.mp hdistinct
    have hheap : ∀ number, number ≠ p.2.session →
        (publishTo origin buf len s p).heap number = s.heap number := by
      intro number hne
      rw [hround]
      exact Function.update_of_ne hne ..
    have hother : ∀ q ∈ ps, q.2.session ≠ p.2.session := by
      intro q hq heq
      have hin : q.2.session ∈ ps.map (fun p => p.2.session) := List.mem_map_of_mem hq
      rw [heq] at hin
      exact hnot hin
    obtain ⟨hkept, hsent⟩ := ih (s := publishTo origin buf len s p)
      (fun q hq => by
        have hq' := hget q (List.mem_cons_of_mem p hq)
        rw [hround]
        exact hq')
      (fun q hq => by
        rw [sessionIdAt, hheap _ (hother q hq)]
        exact hid q (List.mem_cons_of_mem p hq))
      hrest
    refine ⟨?_, ?_⟩
    · intro number hnumber
      rw [List.map_cons, List.mem_cons, not_or] at hnumber
      rw [List.foldl_cons, hkept number hnumber.2, hheap number hnumber.1]
    · intro q hq
      rcases List.mem_cons.mp hq with rfl | hq
      · refine ⟨session, hsession, ?_⟩
        rw [List.foldl_cons, hkept _ hnot, hround]
        exact Function.update_self ..
      · obtain ⟨session', hsession', hsent'⟩ := hsent q hq
        rw [hheap _ (hother q hq)] at hsession'
        refine ⟨session', hsession', ?_⟩
        rw [List.foldl_cons, hsent', hround]

/-! ### All or nothing -/

/-- Every session of `sessions_` has got one entry, with a new `seq`. -/
def Gained (s t : Ctx E) (cmd : UInt32) (buf : Option (List UInt8)) (len : UInt32) : Prop :=
  ∃ seq, seq ∉ s.usedSeqs ∧ ∀ p ∈ s.sessions, ∃ session session' info,
    s.heap p.2.session = some session ∧ t.heap p.2.session = some session' ∧
      session'.writePackets = session.writePackets ++ [info] ∧ info.Carries cmd seq buf len

/-- The list of every session of `sessions_` is the same. -/
def Unchanged (s t : Ctx E) : Prop :=
  ∀ p ∈ s.sessions, (t.heap p.2.session).map Session.writePackets =
    (s.heap p.2.session).map Session.writePackets

/-- `publish_notification_impl` returns `true` and every session has got the
notification, or it returns `false` and none has. -/
def AllOrNothing (s : Ctx E) (cmd : UInt32) (buf : Option (List UInt8)) (len : UInt32) : Prop :=
  ((s.publishNotificationImpl cmd buf len).1 = true ∧
      s.Gained (s.publishNotificationImpl cmd buf len).2 cmd buf len) ∨
    ((s.publishNotificationImpl cmd buf len).1 = false ∧
      s.Unchanged (s.publishNotificationImpl cmd buf len).2)

/-- **A body that is refused is refused in silence.** -/
theorem publish_refused (s : Ctx E) (cmd : UInt32) (buf : Option (List UInt8)) {len : UInt32}
    (h : 16369 < 15 + len.toNat) (hwrap : 15 + len.toNat < 2 ^ 32) :
    s.publishNotificationImpl cmd buf len = (true, { s with curSeq := s.curSeq + 1 }) := by
  have hnone : SharedPacket.build (.notification s.serial (s.curSeq + 1) cmd) buf len = none := by
    refine Option.not_isSome_iff_eq_none.mp (fun hsome => ?_)
    rcases SharedPacket.build_isSome_iff.mp hsome with hfits | hover
    · omega
    · omega
  rw [publishNotificationImpl_eq, foldl_publishTo_refused hnone]

theorem Housed.publish_sent {s : Ctx E} (hs : s.Housed) (cmd : UInt32) (buf : Option (List UInt8))
    {len : UInt32} (h : 15 + len.toNat ≤ 16369 ∨ 2 ^ 32 ≤ 15 + len.toNat) :
    ∃ packet, SharedPacket.build (.notification s.serial (s.curSeq + 1) cmd) buf len = some packet ∧
      ∀ p ∈ s.sessions, ∃ session, s.heap p.2.session = some session ∧
        (s.publishNotificationImpl cmd buf len).2.heap p.2.session =
          some { session with writePackets := session.writePackets ++ [⟨packet, 1, s.now⟩] } := by
  have hsome : (SharedPacket.build (.notification s.serial (s.curSeq + 1) cmd) buf len).isSome :=
    SharedPacket.build_isSome_iff.mpr h
  obtain ⟨packet, hpacket⟩ := Option.isSome_iff_exists.mp hsome
  have hpush : packet.isPush = true := by
    rw [SharedPacket.isPush, packet.isPush_eq, SharedPacket.origin_build hpacket]
    rfl
  refine ⟨packet, hpacket, ?_⟩
  have hid : ∀ p ∈ s.sessions, s.sessionIdAt p.2.session = some p.1 :=
    fun p hp => hs.ids _ (List.mem_map_of_mem hp)
  exact (foldl_publishTo_sent hpacket hpush s.sessions (s := { s with curSeq := s.curSeq + 1 })
    (fun p hp => hs.getSession hp) hid hs.nodup_numbers).2

/-- **It is all or nothing exactly if there is no session, or the body fits.** -/
theorem Housed.allOrNothing_iff {s : Ctx E} (hs : s.Housed) (hturn : s.curSeq + 1 < 2 ^ 32)
    (cmd : UInt32) (buf : Option (List UInt8)) (len : UInt32) :
    s.AllOrNothing cmd buf len ↔ s.sessions = [] ∨ 15 + len.toNat ≤ 16369 := by
  constructor
  · rintro (⟨-, seq, -, hgained⟩ | ⟨hfalse, -⟩)
    · by_contra hnot
      obtain ⟨hne, hlong⟩ := not_or.mp hnot
      obtain ⟨p, hp⟩ := List.exists_mem_of_ne_nil _ hne
      obtain ⟨session, session', info, hsession, hsession', hlist, hcarries⟩ := hgained p hp
      by_cases hwrap : 15 + len.toNat < 2 ^ 32
      · -- nothing was put into the list
        rw [publish_refused s cmd buf (by omega) hwrap] at hsession'
        have hsame : session = session' := Option.some.inj (hsession.symm.trans hsession')
        rw [hsame] at hlist
        exact absurd (congrArg List.length hlist) (by simp)
      · -- the packet that was is written without its header
        have hover : 2 ^ 32 ≤ 15 + len.toNat := Nat.le_of_not_lt hwrap
        obtain ⟨packet, hpacket, hsent⟩ := hs.publish_sent cmd buf (.inr hover)
        obtain ⟨session'', hsession'', hafter⟩ := hsent p hp
        have hsame : session = session'' := Option.some.inj (hsession.symm.trans hsession'')
        have hafter' := Option.some.inj (hsession'.symm.trans hafter)
        rw [hafter', hsame] at hlist
        have hinfo := List.singleton_inj.mp (List.append_cancel_left hlist)
        have hwire := hcarries.wire_eq
        rw [← hinfo, SharedPacket.new_of_build hpacket] at hwire
        have hshort := length_wire_new cmd (UInt32.ofNat (s.curSeq + 1)) true
          (buildHeader cmd (UInt32.ofNat (s.curSeq + 1)) true len) buf hover
        have hlen := congrArg List.length hwire
        rw [List.length_append, PacketHeader.length_bytes] at hlen
        exact absurd hshort (Nat.not_lt.mpr (Nat.le_trans (Nat.le_add_right ..) (Nat.le_of_eq hlen.symm)))
    · cases hfalse
  · intro h
    refine .inl ⟨rfl, UInt32.ofNat (s.curSeq + 1), fresh_seq hturn, fun p hp => ?_⟩
    rcases h with hnil | hfits
    · rw [hnil] at hp
      exact absurd hp List.not_mem_nil
    · obtain ⟨packet, hpacket, hsent⟩ := hs.publish_sent cmd buf (.inl hfits)
      obtain ⟨session, hsession, hafter⟩ := hsent p hp
      have hnew := SharedPacket.new_of_build hpacket
      refine ⟨session, _, _, hsession, hafter, rfl, ?_, ?_, ?_⟩
      · exact congrArg Packet.cmd hnew
      · exact congrArg Packet.seq hnew
      · show packet.packet.wire = _
        rw [hnew]
        exact wire_new _ _ _ _ buf (by omega)

/-! ### Whole runs -/

/-- **Every notification that waits in a list has the `seq` of a publish.** -/
theorem usedSeqs_of_run {serial : Nat} {now : TimePoint} {events : List ServiceEvent} {s : Ctx Log}
    (hrun : Run.run serviceStep (new serial now) events = some s) {number : Nat} {session : Session}
    (hs : s.heap number = some session) {info : Session.SendingPacketInfo}
    (hin : info ∈ session.writePackets) : info.packet.seq ∈ s.usedSeqs := by
  have haccounted : s.hub.Accounted (fun _ => True) :=
    Run.run_invariant (P := fun _ _ => True)
      (fun _ _ _ h _ hstep =>
        Hub.accounted_steps (moves_serviceStep (fun _ _ _ _ => trivial) hstep) h)
      (Network.accounted_new serial now) (Run.along_true _ events) hrun
  exact mem_usedSeqs ((haccounted.accounts number session hs).entries info hin).1

/-- **`publish_notification_impl` in any state of the server.** -/
theorem allOrNothing_of_run {serial : Nat} {now : TimePoint} {events : List ServiceEvent}
    {s : Ctx Log} (hrun : Run.run serviceStep (new serial now) events = some s)
    (hturn : s.curSeq + 1 < 2 ^ 32) (cmd : UInt32) (buf : Option (List UInt8)) (len : UInt32) :
    s.AllOrNothing cmd buf len ↔ s.sessions = [] ∨ 15 + len.toNat ≤ 16369 :=
  (housed_of_run hrun).allOrNothing_iff hturn cmd buf len

theorem accept_one : ∃ s, Run.run serviceStep (new 0 0) [.accept false] = some s ∧
    s.sessions ≠ [] ∧ s.curSeq + 1 < 2 ^ 32 := by
  have hrun : (Run.run serviceStep (new 0 0) [.accept false]).map
      (fun s => (s.sessions.length, s.curSeq)) = some (1, 0) := by decide +kernel
  obtain ⟨s, hs, heq⟩ := Option.map_eq_some_iff.mp hrun
  obtain ⟨hlen, hseq⟩ := Prod.mk.inj heq
  refine ⟨s, hs, fun hnil => ?_, ?_⟩
  · rw [hnil] at hlen
    cases hlen
  · have hseq' : s.curSeq = 0 := hseq
    omega

/-- Two clients come, and both wait for the ack of a notification. -/
def publishedOnce : List ServiceEvent :=
  [.accept false, .accept false, .serverCall (.publishNotification 4 (some [9]) 1)]

theorem allOrNothing_of_run_two : ∃ s, Run.run serviceStep (new 0 0) publishedOnce = some s ∧
    s.sessions.map (fun p => (s.heap p.2.session).map (fun session => session.writePackets.length)) =
      [some 1, some 1] ∧
    s.usedSeqs = [1] ∧ s.AllOrNothing 5 (some [1, 2, 3]) 3 ∧ ¬ s.AllOrNothing 5 none 16355 := by
  have hrun : (Run.run serviceStep (new 0 0) publishedOnce).map (fun s =>
      (s.sessions.map (fun p => (s.heap p.2.session).map (fun session => session.writePackets.length)),
        s.curSeq)) = some ([some 1, some 1], 1) := by decide +kernel
  obtain ⟨s, hs, heq⟩ := Option.map_eq_some_iff.mp hrun
  obtain ⟨hlists, hseq⟩ := Prod.mk.inj heq
  have hcount : s.curSeq = 1 := hseq
  have hturn : s.curSeq + 1 < 2 ^ 32 := by omega
  have hne : s.sessions ≠ [] := by
    intro hnil
    rw [hnil] at hlists
    cases hlists
  refine ⟨s, hs, hlists, ?_, ?_, fun h => ?_⟩
  · rw [usedSeqs, hcount]
    rfl
  · exact (allOrNothing_of_run hs hturn 5 (some [1, 2, 3]) 3).mpr (.inr (by decide))
  · rcases (allOrNothing_of_run hs hturn 5 none 16355).mp h with hnil | hfits
    · exact hne hnil
    · exact absurd hfits (by decide)

/-- **One byte too many**: `true`, and the session there is has got nothing. -/
theorem not_allOrNothing_long : ∃ s, Run.run serviceStep (new 0 0) [.accept false] = some s ∧
    s.curSeq + 1 < 2 ^ 32 ∧ (s.publishNotificationImpl 5 none 16355).1 = true ∧
    (s.publishNotificationImpl 5 none 16355).2.heap = s.heap ∧ ¬ s.AllOrNothing 5 none 16355 := by
  obtain ⟨s, hs, hne, hturn⟩ := accept_one
  refine ⟨s, hs, hturn, rfl, ?_, fun h => ?_⟩
  · rw [publish_refused s 5 none (by decide) (by decide)]
  · rcases ((housed_of_run hs).allOrNothing_iff hturn 5 none 16355).mp h with hnil | hfits
    · exact hne hnil
    · exact absurd hfits (by decide)

end Ctx

end Server

end Ibase
