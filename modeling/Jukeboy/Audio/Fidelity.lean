import Jukeboy.Audio.PcmPath

/-! # The sound arrives

What the sinks get is what the decoder made of the packets of the session, in order and
frame by frame, at the volume of the moment, and with silence behind it where the stream ran
dry. -/
namespace Jukeboy.Audio.PcmPath

open Jukeboy.Base Jukeboy.Base.ByteFile Jukeboy.Base.Runs Jukeboy.Base.StreamBuffer
open Jukeboy.Audio.Volume Jukeboy.Formats.Jba Jukeboy.Player
open Jukeboy.Player.Decode (walkPackets)
open Jukeboy.Player.State (volumeLevelCount)

variable {qemu : Bool} {s t : State qemu}

/-! ## What is claimed -/

/-- The I2S task asks for its buffer, the Bluetooth stack for some frames. -/
def Asks : Sink → Nat → Prop
  | .i2s, len => len = i2sPcmBufBytes
  | .bluetooth, len => frameBytes ∣ len ∧ 0 < len

/-- The sink got as much as it asked for: whole frames of the sound at the volume, and
silence behind them. -/
structure Output.Exact (o : Output) : Prop where
  asked : Asks o.sink o.len
  level : o.level < volumeLevelCount
  length : o.data.length = o.len
  whole : Whole frameBytes o.audio
  sound : samples o.data = (samples o.audio).map (scaled o.level) ++
    List.replicate ((o.len - o.audio.length) / 2) 0

/-- What was taken from the stream and has not arrived at its sink yet. -/
def State.inCalls (s : State qemu) : List UInt8 := (s.call .i2s).audio ++ (s.call .bluetooth).audio

/-- From the chunks of the session to the sinks: the decoder gets the packets in order, the
stream gets what it made of them, all of it as long as there is no stop, and what the sinks
got is what they took out of the stream, where nothing is lost but by a reset. -/
structure Faithful (s : State qemu) : Prop where
  packets : s.decoder.turns.map Prod.fst <+: s.decoder.chunks.flatMap walkPackets
  inOrder : s.decoder.sent.Sublist (s.decoder.turns.map Prod.snd).flatten
  complete : s.decoder.walk.running = true →
    s.decoder.sent ++ s.decoder.toSend = (s.decoder.turns.map Prod.snd).flatten
  flow : s.taken.flatMap Taken.bytes ++ s.stream.held = s.earlier ++ s.decoder.sent
  arrives : s.outputs.flatMap Output.audio ++ s.inCalls = s.taken.flatMap Taken.reads
  exact : ∀ o ∈ s.outputs, o.Exact

/-! ## A turn of the packet walk -/

section
open PacketWalk

variable {w : PacketWalk.State} {a : Answer} {chunkData : Nat → UInt8} {chunkLen : Nat}

/-- The loop hands over nothing, or one packet, and then sends what was made of it. -/
def Hands (a : Answer) (w v : PacketWalk.State) : Prop :=
  v.handed = w.handed ∧ (∀ written size pkt, v.phase ≠ .sending written size pkt) ∨
    ∃ p, v.handed = w.handed ++ [p] ∧
      if a.decoded.getD 0 = 0 then v.phase = .looping
      else ∃ pkt, v.phase = .sending 0 (a.decoded.getD 0) pkt

theorem hands_walkFrame (a : Answer) (hdrSize frameLen : Nat) (hphase : w.phase = .looping) :
    Hands a w (walkFrame chunkLen a hdrSize frameLen w) := by
  have hlooping : ∀ written size pkt, w.phase ≠ .sending written size pkt := by
    intro written size pkt h
    rw [hphase] at h
    cases h
  simp only [walkFrame]
  split
  · exact .inl ⟨rfl, fun _ _ _ h => by cases h⟩
  · split
    · exact .inl ⟨rfl, hlooping⟩
    · split
      · exact .inl ⟨rfl, fun _ _ _ h => by cases h⟩
      · refine .inr ?_
        split
        · next hdecoded => exact ⟨_, rfl, by rw [hdecoded]; exact hphase⟩
        · next hdecoded => exact ⟨_, rfl, by rw [hdecoded]; exact hphase⟩
        · next n hzero hdecoded =>
          refine ⟨_, rfl, ?_⟩
          rw [hdecoded, Option.getD_some, if_neg hzero]
          exact ⟨_, rfl⟩

theorem hands_walkPacket (a : Answer) (hphase : w.phase = .looping) :
    Hands a w (walkPacket chunkData chunkLen a w) := by
  simp only [walkPacket]
  split
  · exact .inl ⟨rfl, fun _ _ _ h => by cases h⟩
  · split
    · exact hands_walkFrame (w := { w with reads := w.reads ++ [w.cursor] }) a _ _ hphase
    · split
      · exact .inl ⟨rfl, fun _ _ _ h => by cases h⟩
      · exact hands_walkFrame (w := { w with reads := w.reads ++ [w.cursor, w.cursor + 1] }) a _ _
          hphase

theorem hands_step (a : Answer) (hphase : w.phase = .looping) :
    Hands a w (PacketWalk.step chunkData chunkLen a w) := by
  unfold PacketWalk.step
  rw [hphase]
  dsimp only
  split
  · split
    · exact .inl ⟨rfl, fun _ _ _ h => by cases h⟩
    · exact hands_walkPacket a hphase
  · exact .inl ⟨rfl, fun _ _ _ h => by cases h⟩

theorem handed_step_sending {written size pkt : Nat}
    (hphase : w.phase = .sending written size pkt) :
    (PacketWalk.step chunkData chunkLen a w).handed = w.handed := by
  unfold PacketWalk.step
  rw [hphase]
  dsimp only
  split
  · split
    · rfl
    · rfl
  · rfl

/-- What the loop that sends leaves: less to send, or nothing. -/
theorem phase_step_sending {written size pkt : Nat} (hphase : w.phase = .sending written size pkt) :
    (PacketWalk.step chunkData chunkLen a w).phase =
      if written < size ∧ a.stop = false then
        .sending (written + min a.sent (size - written)) size pkt
      else .looping := by
  unfold PacketWalk.step
  rw [hphase]
  dsimp only
  by_cases hlt : written < size
  · rw [if_pos hlt]
    cases hstop : a.stop with
    | true => simp
    | false => simp [hlt]
  · rw [if_neg hlt, if_neg fun h => hlt h.1]

theorem running_of_step (h : (PacketWalk.step chunkData chunkLen a w).running = true) :
    w.running = true := by
  unfold PacketWalk.step at h
  split at h
  · split at h
    · split at h
      · cases h
      · rwa [walkPacket_running] at h
    · exact h
  · split at h
    · split at h
      · cases h
      · exact h
    · exact h
  · exact h

/-- A stop in the middle of a frame ends the session. -/
theorem stopped_step_sending {written size pkt : Nat} (hphase : w.phase = .sending written size pkt)
    (hlt : written < size) (hstop : a.stop = true) :
    (PacketWalk.step chunkData chunkLen a w).running = false := by
  unfold PacketWalk.step
  rw [hphase]
  dsimp only
  rw [if_pos hlt, if_pos hstop]

end

/-! ## The decoder task -/

/-- The slices of the chunk that were handed over. -/
def Decoder.slices (d : Decoder) : List Packet := d.walk.handed.map fun p => slice d.chunk p.1 p.2

structure Decoder.Inv (d : Decoder) : Prop where
  walk : PacketWalk.Inv d.chunkData d.chunk.length d.walk
  packets : d.turns.map Prod.fst = d.done.flatMap walkPackets ++ d.slices
  pcm : ∀ written size pkt, d.walk.phase = .sending written size pkt → d.pcm.length = size
  inOrder : (d.sent ++ d.toSend).Sublist (d.turns.map Prod.snd).flatten
  complete : d.walk.running = true → d.sent ++ d.toSend = (d.turns.map Prod.snd).flatten
  whole : Whole frameBytes d.toSend

variable {d : Decoder}

theorem content_chunk (d : Decoder) : PacketWalk.content d.chunkData d.chunk.length = d.chunk := by
  refine List.ext_getElem (PacketWalk.length_content) fun i hi hi' => ?_
  simp only [PacketWalk.content, List.getElem_map, List.getElem_range]
  exact (List.getElem_eq_getD 0).symm

theorem slices_eq (d : Decoder) :
    d.slices = PacketWalk.slices d.chunkData d.chunk.length d.walk := by
  rw [Decoder.slices, PacketWalk.slices, content_chunk]

theorem Decoder.Inv.slices_prefix (h : d.Inv) : d.slices <+: walkPackets d.chunk := by
  have hprefix := PacketWalk.slices_prefix h.walk
  rwa [content_chunk, ← PacketWalk.walkPackets_eq, ← slices_eq] at hprefix

theorem Decoder.Inv.slices_of_ended (h : d.Inv) (hended : d.walk.phase = .ended)
    (hrunning : d.walk.running = true) : d.slices = walkPackets d.chunk := by
  have hall := PacketWalk.slices_of_ended h.walk hended hrunning
  rwa [content_chunk, ← PacketWalk.walkPackets_eq, ← slices_eq] at hall

theorem toSend_of_not_sending
    (h : ∀ written size pkt, d.walk.phase ≠ .sending written size pkt) : d.toSend = [] := by
  unfold Decoder.toSend
  split
  · next hphase => exact absurd hphase (h _ _ _)
  · rfl
  · rfl

theorem toSend_of_sending {written size pkt : Nat} (h : d.walk.phase = .sending written size pkt) :
    d.toSend = (d.pcm.take size).drop written := by
  rw [Decoder.toSend, h]

theorem inv_fresh : Decoder.fresh.Inv where
  walk := by
    have h : PacketWalk.Inv Decoder.fresh.chunkData 0 PacketWalk.initial := PacketWalk.inv_initial
    exact ⟨⟨h.safe.1, h.safe.2, h.safe.3, h.safe.4⟩, h.le, h.before, h.parsed, fun _ _ => rfl,
      fun _ _ _ hphase => by cases hphase⟩
  packets := rfl
  pcm _ _ _ h := by cases h
  inOrder := .slnil
  complete _ := rfl
  whole := .nil _

/-- A packet that is handed over is what is sent next. -/
theorem handOver_one {v : PacketWalk.State} {p : Nat × Nat}
    (hhanded : v.handed = d.walk.handed ++ [p]) (frame : List UInt8) :
    d.handOver v frame =
      { d with walk := v, pcm := frame, turns := d.turns ++ [(slice d.chunk p.1 p.2, frame)] } := by
  simp [Decoder.handOver, hhanded]

theorem handOver_none {v : PacketWalk.State} (hhanded : v.handed = d.walk.handed)
    (frame : List UInt8) : d.handOver v frame = { d with walk := v } := by
  simp [Decoder.handOver, hhanded]

/-- The loop goes on: it hands over nothing, or a packet. -/
theorem inv_handOver (h : d.Inv) {a : PacketWalk.Answer} {frame : List UInt8}
    (ha : a.decoded = some frame.length) (hframe : Whole frameBytes frame)
    (hphase : d.walk.phase = .looping) :
    (d.handOver (PacketWalk.step d.chunkData d.chunk.length a d.walk) frame).Inv := by
  have hwalk := PacketWalk.inv_step a d.walk h.walk
  have hrunning : (PacketWalk.step d.chunkData d.chunk.length a d.walk).running = true →
      d.walk.running = true := running_of_step
  have hhands : Hands a d.walk (PacketWalk.step d.chunkData d.chunk.length a d.walk) :=
    hands_step a hphase
  revert hwalk hrunning hhands
  generalize PacketWalk.step d.chunkData d.chunk.length a d.walk = v
  intro hwalk hrunning hhands
  have hnothing : d.toSend = [] := toSend_of_not_sending fun _ _ _ hsending => by
    rw [hphase] at hsending
    cases hsending
  have hsub := h.inOrder
  have hall := h.complete
  rw [hnothing, List.append_nil] at hsub hall
  rcases hhands with ⟨hhanded, hnot⟩ | ⟨p, hhanded, hnext⟩
  · rw [handOver_none hhanded]
    have hsend : Decoder.toSend { d with walk := v } = [] := toSend_of_not_sending hnot
    refine ⟨hwalk, ?_, fun _ _ _ hsending => absurd hsending (hnot _ _ _), ?_, ?_, ?_⟩
    · rw [Decoder.slices, hhanded]
      exact h.packets
    · rw [hsend, List.append_nil]
      exact hsub
    · intro hrun
      rw [hsend, List.append_nil]
      exact hall (hrunning hrun)
    · rw [hsend]
      exact .nil _
  · rw [handOver_one hhanded]
    rw [ha, Option.getD_some] at hnext
    have hpcm : ∀ written size pkt, v.phase = .sending written size pkt → frame.length = size := by
      intro written size pkt hsending
      split at hnext
      · rw [hnext] at hsending
        cases hsending
      · obtain ⟨_, hnext⟩ := hnext
        rw [hnext] at hsending
        cases hsending
        rfl
    have hsend : Decoder.toSend { d with
        walk := v, pcm := frame, turns := d.turns ++ [(slice d.chunk p.1 p.2, frame)] } = frame := by
      split at hnext
      · next hzero =>
        rw [toSend_of_not_sending fun _ _ _ hsending => by rw [hnext] at hsending; cases hsending]
        exact (List.length_eq_zero_iff.mp hzero).symm
      · obtain ⟨_, hnext⟩ := hnext
        rw [toSend_of_sending hnext, List.take_length, List.drop_zero]
    refine ⟨hwalk, ?_, hpcm, ?_, ?_, ?_⟩
    · rw [Decoder.slices, hhanded, List.map_append, List.map_append, ← List.append_assoc, h.packets]
      rfl
    · rw [hsend, List.map_append, List.flatten_append]
      simpa using hsub.append_right frame
    · intro hrun
      rw [hsend, List.map_append, List.flatten_append, ← hall (hrunning hrun)]
      simp
    · rw [hsend]
      exact hframe

/-- The loop that sends goes on: what the stream takes of the frame is sent, and the rest is
still to be sent unless there is a stop. -/
theorem inv_sendOn (h : d.Inv) {a : PacketWalk.Answer} {capacity : Nat} {b : Buffer UInt8 capacity}
    (hroom : a.sent = b.room) (hdvd : frameBytes ∣ b.room) {written size pkt : Nat}
    (hphase : d.walk.phase = .sending written size pkt) :
    (d.sendOn (PacketWalk.step d.chunkData d.chunk.length a d.walk)
      (b.accepted (if a.stop then [] else d.toSend))).Inv := by
  have hwalk := PacketWalk.inv_step a d.walk h.walk
  have hrunning : (PacketWalk.step d.chunkData d.chunk.length a d.walk).running = true →
      d.walk.running = true := running_of_step
  have hhanded : (PacketWalk.step d.chunkData d.chunk.length a d.walk).handed = d.walk.handed :=
    handed_step_sending hphase
  have hnext : (PacketWalk.step d.chunkData d.chunk.length a d.walk).phase =
      if written < size ∧ a.stop = false then
        .sending (written + min a.sent (size - written)) size pkt
      else .looping := phase_step_sending hphase
  have hcut : written < size → a.stop = true →
      (PacketWalk.step d.chunkData d.chunk.length a d.walk).running = false :=
    stopped_step_sending hphase
  revert hwalk hrunning hhanded hnext hcut
  generalize PacketWalk.step d.chunkData d.chunk.length a d.walk = v
  intro hwalk hrunning hhanded hnext hcut
  have hpcm := h.pcm _ _ _ hphase
  have hsend := toSend_of_sending hphase
  rw [← hpcm, List.take_length] at hsend
  have hlen : d.toSend.length = size - written := by rw [hsend, List.length_drop, hpcm]
  have hslices : d.turns.map Prod.fst =
      d.done.flatMap walkPackets ++ (d.sendOn v (b.accepted (if a.stop then [] else d.toSend))).slices := by
    rw [Decoder.slices]
    simp only [Decoder.sendOn, hhanded]
    exact h.packets
  have hpcm' : ∀ written' size' pkt', v.phase = .sending written' size' pkt' →
      d.pcm.length = size' := by
    intro written' size' pkt' hsending
    rw [hnext] at hsending
    split at hsending
    · cases hsending
      exact hpcm
    · cases hsending
  by_cases hgoes : written < size ∧ a.stop = false
  · rw [if_pos hgoes] at hnext
    rw [hgoes.2, if_neg Bool.false_ne_true] at hslices ⊢
    have hrest : (d.sendOn v (b.accepted d.toSend)).toSend = d.toSend.drop b.room := by
      rw [toSend_of_sending hnext, hsend, hroom, ← hpcm, List.drop_drop]
      show (d.pcm.take _).drop _ = _
      rw [List.take_length]
      rcases Nat.le_total b.room (d.pcm.length - written) with hle | hle
      · rw [Nat.min_eq_left hle]
      · rw [Nat.min_eq_right hle, List.drop_of_length_le (by omega),
          List.drop_of_length_le (by omega)]
    have hsame : (d.sendOn v (b.accepted d.toSend)).sent ++
        (d.sendOn v (b.accepted d.toSend)).toSend = d.sent ++ d.toSend := by
      rw [hrest, Decoder.sendOn, List.append_assoc, b.accepted_append_drop]
    refine ⟨hwalk, hslices, hpcm', ?_, ?_, ?_⟩
    · rw [hsame]
      exact h.inOrder
    · intro hrun
      rw [hsame]
      exact h.complete (hrunning hrun)
    · rw [hrest]
      exact h.whole.drop hdvd
  · rw [if_neg hgoes] at hnext
    have hnot : ∀ written' size' pkt', v.phase ≠ .sending written' size' pkt' := by
      intro written' size' pkt' hsending
      rw [hnext] at hsending
      cases hsending
    have hrest : (d.sendOn v (b.accepted (if a.stop then [] else d.toSend))).toSend = [] :=
      toSend_of_not_sending hnot
    have hnone : b.accepted (if a.stop then [] else d.toSend) = [] := by
      have hdata : (if a.stop then [] else d.toSend) = [] := by
        split
        · rfl
        · next hstop =>
          have hle : ¬ written < size := fun hlt => hgoes ⟨hlt, Bool.eq_false_iff.mpr hstop⟩
          rw [← List.length_eq_zero_iff, hlen]
          omega
      rw [hdata, Buffer.accepted, List.take_nil]
    have hsame : (d.sendOn v (b.accepted (if a.stop then [] else d.toSend))).sent = d.sent := by
      rw [Decoder.sendOn, hnone, List.append_nil]
    refine ⟨hwalk, hslices, hpcm', ?_, ?_, ?_⟩
    · rw [hsame, hrest, List.append_nil]
      exact (List.sublist_append_left _ _).trans h.inOrder
    · intro hrun
      -- a session that goes on was not cut
      have hle : ¬ written < size := by
        intro hlt
        have hstop : a.stop = true := by
          by_contra hnot
          exact hgoes ⟨hlt, Bool.eq_false_iff.mpr hnot⟩
        have hfalse := hcut hlt hstop
        rw [show v.running = true from hrun] at hfalse
        cases hfalse
      have hempty : d.toSend = [] := by
        rw [← List.length_eq_zero_iff, hlen]
        omega
      have hcomplete := h.complete (hrunning hrun)
      rw [hempty] at hcomplete
      rw [hsame, hrest]
      exact hcomplete
    · rw [hrest]
      exact .nil _

/-! ## The calls of the provider -/

theorem Asks.dvd {sink : Sink} {len : Nat} (h : Asks sink len) : frameBytes ∣ len := by
  cases sink with
  | i2s =>
    rw [show len = i2sPcmBufBytes from h]
    decide
  | bluetooth => exact h.1

theorem Asks.pos {sink : Sink} {len : Nat} (h : Asks sink len) : 0 < len := by
  cases sink with
  | i2s =>
    rw [show len = i2sPcmBufBytes from h]
    decide
  | bluetooth => exact h.2

/-- A call has what it asked for, in whole frames. -/
def Call.Fits (sink : Sink) : Call → Prop
  | .idle => True
  | .receiving len => Asks sink len
  | .scaling len audio => Asks sink len ∧ Whole frameBytes audio ∧ audio.length ≤ len

/-- A provider that fills all of it is taken at its word. -/
theorem pad_full {sink : Sink} {len : Nat} (h : Asks sink len) (data : List UInt8) :
    pad len ⟨data, len⟩ sink = data := by
  have hpos := h.pos
  cases sink with
  | i2s =>
    have hlen : len = i2sPcmBufBytes := h
    simp only [pad, padI2s]
    rw [if_neg (by omega), if_neg (by omega)]
  | bluetooth =>
    simp only [pad, padA2dp]
    rw [if_neg (Nat.lt_irrefl _)]

/-- The silence a sink adds is the silence the player has put there. -/
theorem pad_silence {sink : Sink} {len : Nat} (h : Asks sink len) {sound : List UInt8}
    (hle : sound.length ≤ len) :
    pad len ⟨sound ++ List.replicate (len - sound.length) 0, sound.length⟩ sink =
      sound ++ List.replicate (len - sound.length) 0 := by
  cases sink with
  | i2s =>
    have hlen : len = i2sPcmBufBytes := h
    subst hlen
    simp only [pad, padI2s]
    split
    · next hzero =>
      rw [List.length_eq_zero_iff.mp hzero]
      rfl
    · split
      · rw [List.take_left]
      · rfl
  | bluetooth =>
    simp only [pad, padA2dp]
    split
    · rw [List.take_left]
    · rfl

theorem exact_silence {sink : Sink} {len level : Nat} (h : Asks sink len)
    (hlevel : level < volumeLevelCount) :
    Output.Exact ⟨sink, len, level, [], List.replicate len 0⟩ where
  asked := h
  level := hlevel
  length := List.length_replicate
  whole := .nil _
  sound := by
    have hdvd : 2 ∣ len := (Nat.dvd_trans ⟨2, rfl⟩ h.dvd : 2 ∣ len)
    have htwo : 2 * (len / 2) = len := Nat.mul_div_cancel' hdvd
    rw [List.length_nil, Nat.sub_zero, samples, List.map_nil, List.nil_append, ← samples_silence, htwo]

theorem exact_sound {sink : Sink} {len level : Nat} {audio : List UInt8} (h : Asks sink len)
    (hlevel : level < volumeLevelCount) (hwhole : Whole frameBytes audio) (hle : audio.length ≤ len) :
    Output.Exact ⟨sink, len, level, audio,
      applyVolume level audio ++ List.replicate (len - audio.length) 0⟩ where
  asked := h
  level := hlevel
  length := by
    rw [List.length_append, length_applyVolume, List.length_replicate]
    exact Nat.add_sub_cancel' hle
  whole := hwhole
  sound := by
    have hrest : frameBytes ∣ len - audio.length := Nat.dvd_sub h.dvd hwhole
    have hdvd : 2 ∣ len - audio.length := Nat.dvd_trans ⟨2, rfl⟩ hrest
    have hsound : 2 ∣ (applyVolume level audio).length := by
      rw [length_applyVolume]
      exact Nat.dvd_trans ⟨2, rfl⟩ hwhole
    have htwo : 2 * ((len - audio.length) / 2) = len - audio.length := Nat.mul_div_cancel' hdvd
    rw [samples_append hsound, samples_applyVolume, ← samples_silence, htwo]

/-! ## The invariant -/

/-- No sink but this one is in a call. -/
def State.Only (s : State qemu) (sink : Sink) : Prop := ∀ other, other ≠ sink → s.call other = .idle

structure State.Inv (s : State qemu) : Prop where
  decoder : s.decoder.Inv
  held : Whole frameBytes s.stream.held
  flow : Flow s.stream (s.earlier ++ s.decoder.sent) s.taken
  calls : ∀ sink, (s.call sink).Fits sink
  alone : ∃ sink, s.Only sink
  arrives : s.outputs.flatMap Output.audio ++ s.inCalls = s.taken.flatMap Taken.reads
  exact : ∀ o ∈ s.outputs, o.Exact
  level : s.volumeLevel < volumeLevelCount

theorem inv_init (qemu : Bool) : (init qemu).Inv where
  decoder := inv_fresh
  held := .nil _
  flow := .empty
  calls _ := trivial
  alone := ⟨.i2s, fun _ _ => rfl⟩
  arrives := rfl
  exact _ h := by cases h
  level := Nat.lt_succ_self 10

theorem dvd_pcmStreamBufSize (qemu : Bool) : frameBytes ∣ pcmStreamBufSize qemu := by
  cases qemu
  · decide
  · decide

theorem State.Inv.room (h : s.Inv) : frameBytes ∣ s.stream.room :=
  h.held.room (dvd_pcmStreamBufSize qemu)

theorem State.Inv.only (h : s.Inv) {sink : Sink} (hbusy : s.call sink ≠ .idle) : s.Only sink := by
  obtain ⟨busy, halone⟩ := h.alone
  by_cases heq : sink = busy
  · rwa [heq]
  · exact absurd (halone sink heq) hbusy

theorem inCalls_eq {sink : Sink} (h : s.Only sink) : s.inCalls = (s.call sink).audio := by
  unfold State.inCalls
  cases sink with
  | i2s =>
    rw [h .bluetooth (by decide)]
    exact List.append_nil _
  | bluetooth =>
    rw [h .i2s (by decide)]
    rfl

@[simp] theorem call_setCall (s : State qemu) (sink other : Sink) (call : Call) :
    (s.setCall sink call).call other = if other = sink then call else s.call other :=
  Function.update_apply ..

/-- A call that moves on is still the only one. -/
theorem only_of_call {sink : Sink} {call : Call} (h : s.Only sink)
    (hcall : ∀ other, t.call other = if other = sink then call else s.call other) : t.Only sink := by
  intro other hne
  rw [hcall, if_neg hne]
  exact h other hne

theorem calls_of_call {sink : Sink} {call : Call} (h : s.Inv) (hfits : call.Fits sink)
    (hcall : ∀ other, t.call other = if other = sink then call else s.call other) :
    ∀ other, (t.call other).Fits other := by
  intro other
  rw [hcall]
  split
  · next heq => rwa [heq]
  · exact h.calls other

/-! ## The decoder keeps it -/

theorem inv_decode (h : s.Inv) (stop : Bool) {frame : List UInt8} (hframe : Whole frameBytes frame) :
    (s.decode stop frame).Inv := by
  unfold State.decode
  cases hphase : s.decoder.walk.phase with
  | looping =>
    simp only [hphase]
    exact { h with decoder := inv_handOver h.decoder rfl hframe hphase }
  | sending written size pkt =>
    simp only [hphase]
    have hdecoder := inv_sendOn (a := ⟨stop, some frame.length, s.stream.room⟩) h.decoder rfl
      h.room hphase
    have hdata : Whole frameBytes (if stop then [] else s.decoder.toSend) := by
      split
      · exact .nil _
      · exact h.decoder.whole
    refine { h with decoder := hdecoder, held := h.held.append (hdata.take h.room), flow := ?_ }
    have hflow := h.flow.send (if stop then [] else s.decoder.toSend)
    rwa [List.append_assoc] at hflow
  | ended =>
    simp only [hphase]
    exact h

theorem inv_nextChunk {chunk : List UInt8} (h : s.Inv) (hstep : s.nextChunk chunk = some t) :
    t.Inv := by
  unfold State.nextChunk at hstep
  dsimp only at hstep
  split at hstep
  · next hready =>
    obtain ⟨hended, hrunning⟩ := hready
    cases hstep
    have hdone := h.decoder.slices_of_ended hended hrunning
    have hnothing : s.decoder.toSend = [] := toSend_of_not_sending fun _ _ _ hsending => by
      rw [hended] at hsending
      cases hsending
    have hsub := h.decoder.inOrder
    have hall := h.decoder.complete hrunning
    rw [hnothing] at hsub hall
    refine { h with decoder := ⟨PacketWalk.inv_initial, ?_, fun _ _ _ hsending => ?_, hsub,
      fun _ => hall, .nil _⟩ }
    · rw [h.decoder.packets, hdone, List.flatMap_append, List.flatMap_singleton]
      exact (List.append_nil _).symm
    · cases hsending
  · cases hstep

theorem inv_startSession (h : s.Inv) (hstep : s.startSession = some t) : t.Inv := by
  unfold State.startSession at hstep
  split at hstep
  · cases hstep
    refine { h with decoder := inv_fresh, flow := ?_ }
    have hflow := h.flow
    rwa [← List.append_nil (s.earlier ++ s.decoder.sent)] at hflow
  · cases hstep

theorem inv_resetPipeline (h : s.Inv) (blocked : Bool) : (s.resetPipeline blocked).Inv := by
  unfold State.resetPipeline
  split
  · exact h
  · refine { h with held := .nil _, flow := h.flow.reset, arrives := ?_ }
    rw [List.flatMap_append, List.flatMap_singleton]
    exact h.arrives.trans (List.append_nil _).symm

/-! ## The sinks keep it -/

/-- A provider returns: its sound is with the sink now. -/
theorem inv_deliver (h : s.Inv) {sink : Sink} {len : Nat} {audio : List UInt8} {r : Filled}
    (honly : s.Only sink) (haudio : (s.call sink).audio = audio)
    (hexact : Output.Exact ⟨sink, len, s.volumeLevel, audio, pad len r sink⟩) :
    (s.deliver sink len audio r).Inv := by
  have hcall : ∀ other, (s.deliver sink len audio r).call other =
      if other = sink then .idle else s.call other := fun other => call_setCall s sink other .idle
  have hsilent : ((s.deliver sink len audio r).call sink).audio = [] := by
    rw [hcall, if_pos rfl]
    rfl
  have hfits : Call.Fits sink .idle := trivial
  have harrives := h.arrives
  rw [inCalls_eq honly, haudio] at harrives
  refine { h with
    calls := calls_of_call h hfits hcall, alone := ⟨sink, only_of_call honly hcall⟩
    arrives := ?_, exact := ?_ }
  · rw [inCalls_eq (only_of_call honly hcall), hsilent, List.append_nil]
    show (s.outputs ++ [_]).flatMap Output.audio = _
    rw [List.flatMap_append, List.flatMap_singleton]
    exact harrives
  · intro o ho
    rcases List.mem_append.mp ho with ho | ho
    · exact h.exact o ho
    · rw [List.mem_singleton.mp ho]
      exact hexact

theorem inv_silence (h : s.Inv) {sink : Sink} {len : Nat} (hasks : Asks sink len)
    (hidle : ∀ other, s.call other = .idle) :
    (s.deliver sink len [] ⟨List.replicate len 0, len⟩).Inv := by
  refine inv_deliver h (fun other _ => hidle other) (by rw [hidle]; rfl) ?_
  rw [pad_full hasks]
  exact exact_silence hasks h.level

theorem inv_dispatchPcm (h : s.Inv) {sink : Sink} {len : Nat} (hasks : Asks sink len)
    (hidle : ∀ other, s.call other = .idle) : (s.dispatchPcm sink len).Inv := by
  unfold State.dispatchPcm
  split
  · exact inv_silence h hasks hidle
  · split
    · exact inv_silence h hasks hidle
    · have honly : s.Only sink := fun other _ => hidle other
      have hcall : ∀ other, (s.setCall sink (.receiving len)).call other =
          if other = sink then .receiving len else s.call other := fun other => call_setCall s sink other _
      have hfits : Call.Fits sink (.receiving len) := hasks
      have hsilent : ((s.setCall sink (.receiving len)).call sink).audio = (s.call sink).audio := by
        rw [hcall, if_pos rfl, hidle]
        rfl
      refine { h with
        calls := calls_of_call h hfits hcall, alone := ⟨sink, only_of_call honly hcall⟩
        arrives := ?_ }
      rw [inCalls_eq (only_of_call honly hcall), hsilent, ← inCalls_eq honly]
      exact h.arrives

theorem inv_receive {sink : Sink} (h : s.Inv) (hstep : s.receive sink = some t) : t.Inv := by
  unfold State.receive at hstep
  split at hstep
  · next len hreceiving =>
    have honly : s.Only sink := h.only fun hidle => by
      rw [hreceiving] at hidle
      cases hidle
    have hasks : Asks sink len := by
      have hfits := h.calls sink
      rwa [hreceiving] at hfits
    have hcall : ∀ other, t.call other =
        if other = sink then .scaling len (s.stream.given len) else s.call other := by
      cases hstep
      exact fun other => call_setCall s sink other _
    have hfits : Call.Fits sink (.scaling len (s.stream.given len)) :=
      ⟨hasks, h.held.take hasks.dvd, List.length_take_le _ _⟩
    have hinCalls : t.inCalls = s.stream.given len := by
      rw [inCalls_eq (only_of_call honly hcall), hcall, if_pos rfl]
      rfl
    have harrives := h.arrives
    rw [inCalls_eq honly, hreceiving] at harrives
    have hcalls := calls_of_call h hfits hcall
    have halone : ∃ busy, t.Only busy := ⟨sink, only_of_call honly hcall⟩
    cases hstep
    refine { h with
      held := h.held.drop hasks.dvd, flow := h.flow.receive len, calls := hcalls, alone := halone
      arrives := ?_ }
    rw [hinCalls, List.flatMap_append, List.flatMap_singleton, ← harrives, Call.audio, List.append_nil]
    rfl
  · cases hstep
  · cases hstep

theorem inv_finish {sink : Sink} (h : s.Inv) (hstep : s.finish sink = some t) : t.Inv := by
  unfold State.finish at hstep
  split at hstep
  · next len audio hscaling =>
    have honly : s.Only sink := h.only fun hidle => by
      rw [hscaling] at hidle
      cases hidle
    have hfits := h.calls sink
    rw [hscaling] at hfits
    obtain ⟨hasks, hwhole, hle⟩ := hfits
    cases hstep
    refine inv_deliver h honly (by rw [hscaling]; rfl) ?_
    have hlen : (applyVolume s.volumeLevel audio).length ≤ len := by rwa [length_applyVolume]
    have hpad := pad_silence hasks hlen
    rw [length_applyVolume] at hpad
    rw [hpad]
    exact exact_sound hasks h.level hwhole hle
  · cases hstep
  · cases hstep

theorem inv_i2sTask {enables : Bool} (h : s.Inv) (hC : s.call .bluetooth = .idle)
    (hstep : s.i2sTask enables = some t) : t.Inv := by
  unfold State.i2sTask at hstep
  split at hstep
  · cases hstep
  · next hcall =>
    have hidle : ∀ other, s.call other = .idle := by
      intro other
      cases other with
      | i2s => exact not_not.mp hcall
      | bluetooth => exact hC
    split at hstep
    · cases hstep
      exact { h with }
    · split at hstep
      · cases hstep
      · split at hstep
        · cases hstep
          exact inv_dispatchPcm h rfl hidle
        · cases hstep
          refine inv_deliver h (fun other _ => hidle other) (by rw [hidle]; rfl) ?_
          exact exact_silence rfl h.level

theorem inv_a2dpDataCb {len : Nat} (h : s.Inv) (hlen : frameBytes ∣ len)
    (hC : s.call .i2s = .idle) (hstep : s.a2dpDataCb len = some t) : t.Inv := by
  unfold State.a2dpDataCb at hstep
  split at hstep
  · cases hstep
  · next hcall =>
    have hidle : ∀ other, s.call other = .idle := by
      intro other
      cases other with
      | i2s => exact hC
      | bluetooth => exact not_not.mp hcall
    split at hstep
    · cases hstep
      exact h
    · next hpos =>
      have hasks : Asks .bluetooth len := ⟨hlen, Nat.pos_of_ne_zero hpos⟩
      split at hstep
      · cases hstep
        exact inv_dispatchPcm h hasks hidle
      · cases hstep
        exact inv_silence h hasks hidle

/-! ## Every run keeps it -/

theorem inv_step {a : Action} (h : s.Inv) (hC : Condition s a) (hstep : step s a = some t) :
    t.Inv := by
  cases a with
  | decode stop frame =>
    cases hstep
    exact inv_decode h stop hC
  | nextChunk chunk => exact inv_nextChunk h hstep
  | startSession => exact inv_startSession h hstep
  | resetPipeline blocked =>
    cases hstep
    exact inv_resetPipeline h blocked
  | setPaused paused =>
    cases hstep
    exact { h with }
  | volumeUp =>
    cases hstep
    refine { h with level := ?_ }
    dsimp only
    split
    · assumption
    · exact h.level
  | volumeDown =>
    cases hstep
    refine { h with level := ?_ }
    have hlevel := h.level
    dsimp only
    split
    · exact Nat.lt_of_le_of_lt (Nat.sub_le _ _) hlevel
    · exact hlevel
  | setVolumeAbsolute avrcVol =>
    cases hstep
    exact { h with level := setVolumeAbsolute_lt avrcVol }
  | setProvider =>
    cases hstep
    exact { h with }
  | i2sSend cmd =>
    cases hstep
    unfold State.i2sSend
    split
    · exact { h with }
    · exact h
  | i2sTask enables => exact inv_i2sTask h hC hstep
  | registerBluetooth provider =>
    cases hstep
    exact { h with }
  | a2dpDataCb len => exact inv_a2dpDataCb h hC.1 hC.2 hstep
  | receive sink => exact inv_receive h hstep
  | finish sink => exact inv_finish h hstep

theorem faithful_of_inv (h : s.Inv) : Faithful s where
  packets := by
    rw [h.decoder.packets, Decoder.chunks, List.flatMap_append, List.flatMap_singleton]
    exact (List.prefix_append_right_inj _).mpr h.decoder.slices_prefix
  inOrder := (List.sublist_append_left _ _).trans h.decoder.inOrder
  complete := h.decoder.complete
  flow := h.flow
  arrives := h.arrives
  exact := h.exact

/-- **The sound arrives.** In every run, whatever turns the decoder, the sinks and the
commands take, what the sinks get is what the decoder made of the packets of the chunks. -/
theorem sound_arrives (qemu : Bool) {as : List Action} {s : State qemu}
    (hC : Along step Condition (init qemu) as) (hrun : run step (init qemu) as = some s) :
    Faithful s :=
  faithful_of_inv (run_invariant (fun _ _ _ h hC hstep => inv_step h hC hstep) (inv_init qemu) hC hrun)

/-- A chunk of one packet, of which the decoder makes two frames, at half the volume. -/
def playing : List Action :=
  [.setProvider, .i2sSend (.registerProvider true), .i2sSend .start, .i2sTask true, .i2sTask true,
    .nextChunk [1, 7], .decode false [0, 1, 0, 2, 0, 3, 0, 4], .decode false [], .setVolumeAbsolute 64,
    .i2sTask true, .receive .i2s, .finish .i2s]

theorem sound_arrives_playing : ∃ s, run step (init false) playing = some s ∧
      s.outputs.map Output.audio = [[0, 1, 0, 2, 0, 3, 0, 4]] ∧ Faithful s :=
  have hcondition : Along step Condition (init false) playing := by decide +kernel
  ⟨_, rfl, rfl, sound_arrives false hcondition rfl⟩

end Jukeboy.Audio.PcmPath
