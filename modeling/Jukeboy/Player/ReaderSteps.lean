import Jukeboy.Player.SessionInvariant

/-! # What the reader puts into the chunk queue

Every step of the reader task keeps the invariant of its sessions. The bounds it
reads are those of its session's table, the offset of its read is that of the chunk
in the file, the answer it takes is the one to its own read, and what it queues are
the bytes of the chunk. -/
namespace Jukeboy.Player.ReaderSteps

open Jukeboy.Base Jukeboy.Base.ByteFile Jukeboy.Base.ByteLayout Jukeboy.Base.OneSlot
open Jukeboy.Player.Track Jukeboy.Player.LookupWindow
open Jukeboy.Player.CartridgeReads Jukeboy.Player.ReadSessions Jukeboy.Player.SessionInvariant

variable {info : TrackInfo} {i : Nat} {card : Card} {s t : State} {io : State.ReaderIo}

/-! ## Up to the chunk -/

/-- The reader takes the start command it is given. -/
theorem inv_receive (hpc : s.reader.pc = .idle) (h : s.readerStep io = some t) (hs : Inv s) :
    Inv t := by
  simp only [State.readerStep, hpc] at h
  obtain ⟨session, hcmd, rfl⟩ := Option.map_eq_some_iff.mp h
  have hstart : inStart s.pc = false := hs.not_inStart fun hfree => by
    rw [hfree.2] at hcmd
    cases hcmd
  have hread : awaitsRead s.pc = false := by
    cases hread : awaitsRead s.pc with
    | false => rfl
    | true => rw [inStart_of_awaitsRead hread] at hstart; cases hstart
  refine ⟨hs.loaded, hs.own, fun _ h => (by cases h), fun _ => hs.queued session hcmd, trivial, ?_,
    hs.load,
    fun _ _ => hs.quiet (by rw [hpc]; intro h; cases h) hread⟩
  exact fun h => by cases hstart.symm.trans h

theorem inv_starting (hpc : s.reader.pc = .starting) (h : s.readerStep io = some t) (hs : Inv s) :
    Inv t := by
  have hbusy : s.reader.pc ≠ .idle := by rw [hpc]; intro h; cases h
  have hquiet := hs.quiet_of_busy hbusy (by rw [hpc]; intro h; cases h)
  simp only [State.readerStep, hpc] at h
  cases h
  refine hs.readerTo hbusy rfl ?_ ?_ fun _ => hquiet.take
  · intro d hd
    rcases List.mem_cons.mp hd with rfl | hd
    · exact own_begun _
    · exact hs.own d hd
  · dsimp only
    split
    · trivial
    · exact ⟨fun _ => ⟨Nat.le_refl _, _, by rw [ownMessages_self]⟩, fun _ h => by cases h⟩

theorem inv_loopTop (hpc : s.reader.pc = .loopTop) (h : s.readerStep io = some t) (hs : Inv s) :
    Inv t := by
  have hbusy : s.reader.pc ≠ .idle := by rw [hpc]; intro h; cases h
  have hwait : s.reader.pc ≠ .waiting := by rw [hpc]; intro h; cases h
  have hstage := hs.reader
  simp only [ReaderStage, hpc] at hstage
  simp only [State.readerStep, hpc] at h
  split at h
  · cases h
    exact hs.trackDone hbusy hwait
  · cases h
    exact hs.readerMove hbusy hwait rfl hstage

/-- The reader makes sure of its window. -/
theorem inv_resolving (hpc : s.reader.pc = .resolving) (h : s.readerStep io = some t)
    (hs : Inv s) : Inv t := by
  have hbusy : s.reader.pc ≠ .idle := by rw [hpc]; intro h; cases h
  have hquiet := hs.quiet_of_busy hbusy (by rw [hpc]; intro h; cases h)
  have hstart := hs.not_inStart (not_free_of_busy hbusy)
  have hstage := hs.reader
  simp only [ReaderStage, hpc] at hstage
  simp only [State.readerStep, hpc, Option.some.injEq] at h
  subst h
  generalize hio : ({ io.window with openOk := _ } : WindowIo) = wio
  have hloaded := hs.loaded.ensureWindow wio s.reader.chunkIndex
  have hname := (StateInvariant.ensureWindow_frame
    (s.cart.card.content s.service.trackInfo.filename) wio s.service.trackInfo
    s.reader.chunkIndex).1
  have hbound {file : List UInt8} (hb : Bound s.cart.card s.service.trackInfo file) :
      Bound s.cart.card (ensureWindow (s.cart.card.content s.service.trackInfo.filename) wio
        s.service.trackInfo s.reader.chunkIndex).2 file := by
    intro hsome
    rw [hname] at hsome ⊢
    exact hb hsome
  refine ⟨hloaded, hs.own, fun session hq => hbound (hs.queued session hq),
    fun _ => hbound (hs.bound hbusy), ?_, fun h => (by cases hstart.symm.trans h),
    loadStage_of_not_inStart hstart _, fun _ _ => hquiet⟩
  dsimp only
  split
  · next hok =>
    refine ⟨fun hsome => ?_, hstage.2⟩
    change (ensureWindow _ wio _ _).2.filename ≠ none at hsome
    rw [hname] at hsome
    have hd := hs.loaded.describes hsome
    exact ⟨hstage.1 hsome,
      (ensureWindow_spec wio _ (hd.same.geometry hd.geometry) hd.window).2.2 hok⟩
  · trivial

/-- **The read of the bounds** of a chunk that the window contains gives the bounds of
the session's own table. -/
theorem ownBounds_of_read {b : Nat × Nat} {session : Session} (hloaded : Loaded card info)
    (hbound : Bound card info session.file) (hsome : info.filename ≠ none)
    (hin : lookupWindowContainsChunk info i = true) (h : readBounds info i = some b) :
    i < (trackOf session.file).lookupTableLen ∧ b = ownBounds session.file i ∧
      BoundsValid (trackOf session.file) b := by
  have hd := hloaded.describes hsome
  rw [hbound hsome] at hd
  rw [readBounds_of_contains hd.window hin, Option.some.injEq, hd.same.tableBounds] at h
  subst h
  have hvalid := hd.window.valid i hin
  rw [hd.same.boundsValid, hd.same.tableBounds] at hvalid
  exact ⟨hd.same.lookupTableLen ▸ (contains_iff.mp hin).2.1, rfl, hvalid⟩

theorem inv_checked (hpc : s.reader.pc = .checked) (h : s.readerStep io = some t) (hs : Inv s) :
    Inv t := by
  have hbusy : s.reader.pc ≠ .idle := by rw [hpc]; intro h; cases h
  have hwait : s.reader.pc ≠ .waiting := by rw [hpc]; intro h; cases h
  have hstage := hs.reader
  simp only [ReaderStage, hpc] at hstage
  obtain ⟨hprogress, hbuffer⟩ := hstage
  simp only [State.readerStep, hpc] at h
  obtain ⟨b, hread, h⟩ := Option.bind_eq_some_iff.mp h
  unfold State.boundedChunk at h
  split at h
  · cases h
  by_cases hsome : s.service.trackInfo.filename = none
  · -- the track was freed, and the entries read are zeros
    rw [hs.loaded.free hsome] at hread
    have hzero := readBounds_zero hread
    rw [if_pos (by omega)] at h
    cases h
    exact hs.readerMove hbusy hwait rfl ⟨fun hloaded => absurd hsome hloaded, hbuffer⟩
  · obtain ⟨hprog, hin⟩ := hprogress hsome
    obtain ⟨htable, hown, hvalid⟩ :=
      ownBounds_of_read hs.loaded (hs.bound hbusy) hsome hin hread
    have hchunk : InChunk s.deliveries s.reader.session s.reader.chunkIndex b :=
      ⟨hprog, htable, hown, hvalid⟩
    have hlong : ¬ b.2 - b.1 ≤ chunkCrcBytes := by
      have := hvalid.2.2.1
      unfold chunkCrcBytes
      omega
    rw [if_neg hlong] at h
    cases h
    refine hs.readerMove hbusy hwait rfl ?_
    dsimp only
    split
    · next hfits =>
      simp only [Bool.and_eq_true, decide_eq_true_eq] at hfits
      exact ⟨hchunk, hbuffer, hfits.1.2, hfits.2⟩
    · split
      · exact hchunk
      · exact hchunk

theorem inv_flushing (hpc : s.reader.pc = .flushing) (h : s.readerStep io = some t) (hs : Inv s) :
    Inv t := by
  have hbusy : s.reader.pc ≠ .idle := by rw [hpc]; intro h; cases h
  have hwait : s.reader.pc ≠ .waiting := by rw [hpc]; intro h; cases h
  have hstage := hs.reader
  simp only [ReaderStage, hpc] at hstage
  simp only [State.readerStep, hpc] at h
  split at h
  · cases h
    exact hs.trackDone hbusy hwait
  · split at h
    · cases h
      exact hs.readerMove hbusy hwait rfl hstage
    · cases h

theorem inv_taking (hpc : s.reader.pc = .taking) (h : s.readerStep io = some t) (hs : Inv s) :
    Inv t := by
  have hbusy : s.reader.pc ≠ .idle := by rw [hpc]; intro h; cases h
  have hwait : s.reader.pc ≠ .waiting := by rw [hpc]; intro h; cases h
  have hstage := hs.reader
  simp only [ReaderStage, hpc] at hstage
  simp only [State.readerStep, hpc] at h
  split at h
  · cases h
    exact hs.trackDone hbusy hwait
  · split at h
    · cases h
    · cases h
      exact hs.readerMove hbusy hwait rfl hstage

/-- A chunk of the session's file begins inside the file. -/
theorem fileOffset_lt {deliveries : List Delivery} {session : Session} {b : Nat × Nat}
    (h : InChunk deliveries session i b) (hg : Geometry session.file (trackOf session.file)) :
    fileOffset session b.1 ≤ session.file.length := by
  have hle := h.valid.1
  have hlen := h.valid.2.1
  have hpos := hg.data_pos
  have hsize := hg.size_le
  unfold TrackInfo.dataLen at hlen
  unfold fileOffset
  omega

/-- The offset of the read is that of the chunk in its file. -/
theorem inv_requesting (hpc : s.reader.pc = .requesting) (h : s.readerStep io = some t)
    (hs : Inv s) : Inv t := by
  have hbusy : s.reader.pc ≠ .idle := by rw [hpc]; intro h; cases h
  have hwait : s.reader.pc ≠ .waiting := by rw [hpc]; intro h; cases h
  have hstage := hs.reader
  simp only [ReaderStage, hpc] at hstage
  simp only [State.readerStep, hpc] at h
  split at h
  · cases h
    exact hs.trackDone hbusy hwait
  split at h
  · cases h
    exact hs.readFailed hbusy hwait
  · cases h
    refine hs.readerMove hbusy hwait rfl ⟨hstage, fun hsome => ?_⟩
    have hd := hs.loaded.describes hsome
    have hcontent := hs.bound hbusy hsome
    have hlt := s.cart.card.length_content_lt s.service.trackInfo.filename
    rw [hcontent] at hd hlt
    have hoffset := fileOffset_lt hstage hd.geometry
    rw [hd.same.dataOffset]
    exact Nat.mod_eq_of_lt (Nat.lt_of_le_of_lt hoffset hlt)

theorem inv_copying {offset : Nat} (hpc : s.reader.pc = .copying offset)
    (h : s.readerStep io = some t) (hs : Inv s) : Inv t := by
  have hbusy : s.reader.pc ≠ .idle := by rw [hpc]; intro h; cases h
  have hwait : s.reader.pc ≠ .waiting := by rw [hpc]; intro h; cases h
  have hstage := hs.reader
  simp only [ReaderStage, hpc] at hstage
  simp only [State.readerStep, hpc] at h
  cases h
  refine hs.readerMove hbusy hwait rfl ⟨hstage.1, fun _ content hfind => ?_⟩
  have hsome : s.service.trackInfo.filename ≠ none := fun hnone => by
    change s.cart.card.find s.service.trackInfo.filename = some content at hfind
    rw [hnone] at hfind
    cases hfind
  have hcontent := hs.bound hbusy hsome
  rw [Card.content, show s.cart.card.find s.service.trackInfo.filename = some content from hfind]
    at hcontent
  exact ⟨hcontent, hstage.2 hsome⟩

theorem inv_sending {req : Request} (hpc : s.reader.pc = .sending req)
    (h : s.readerStep io = some t) (hs : Inv s) : Inv t := by
  have hbusy : s.reader.pc ≠ .idle := by rw [hpc]; intro h; cases h
  have hwait : s.reader.pc ≠ .waiting := by rw [hpc]; intro h; cases h
  have hquiet := hs.quiet_of_busy hbusy hwait
  have hstage := hs.reader
  simp only [ReaderStage, hpc] at hstage
  simp only [State.readerStep, hpc] at h
  split at h
  · cases h
    exact hs.readFailed hbusy hwait
  · next cart hsend =>
    cases h
    have hcard : cart.card = s.cart.card := by
      obtain ⟨mail, -, rfl⟩ := Option.map_eq_some_iff.mp hsend
      rfl
    refine hs.readerTo hbusy ?_ hs.own ⟨hstage.1, ?_⟩ fun h => absurd rfl h
    · simp only [hcard]
    · exact expects_sendRequest hquiet hstage.2 hsend

theorem inv_waiting (hpc : s.reader.pc = .waiting) (h : s.readerStep io = some t) (hs : Inv s) :
    Inv t := by
  have hbusy : s.reader.pc ≠ .idle := by rw [hpc]; intro h; cases h
  have hstage := hs.reader
  simp only [ReaderStage, hpc] at hstage
  simp only [State.readerStep, hpc] at h
  split at h
  · split at h
    · cases h
      exact hs.readerTo hbusy rfl hs.own hstage fun hwait => absurd rfl hwait
    · cases h
  · next hnotified =>
    cases h
    obtain ⟨hquiet, hnumber, hholds⟩ := expects_takeNotification hstage.2 hnotified
    refine hs.readerTo hbusy rfl hs.own ?_ fun _ => hquiet
    dsimp only
    split
    · trivial
    · exact ⟨hstage.1, hnumber, hholds⟩

theorem inv_resulting (hpc : s.reader.pc = .resulting) (h : s.readerStep io = some t)
    (hs : Inv s) : Inv t := by
  have hbusy : s.reader.pc ≠ .idle := by rw [hpc]; intro h; cases h
  have hwait : s.reader.pc ≠ .waiting := by rw [hpc]; intro h; cases h
  have hstage := hs.reader
  simp only [ReaderStage, hpc] at hstage
  obtain ⟨hchunk, -, hholds⟩ := hstage
  simp only [State.readerStep, hpc] at h
  split at h
  · cases h
    exact hs.readFailed hbusy hwait
  · next hgood =>
    cases h
    simp only [Bool.or_eq_true, bne_iff_ne, decide_eq_true_eq, not_or, not_not, Nat.not_lt] at hgood
    obtain ⟨buf, hdata, hbytes⟩ := hholds hgood.1
    have hle := hchunk.valid.1
    refine hs.readerMove hbusy hwait rfl ⟨hchunk, fun b hb => ?_, Nat.le_refl _, ?_⟩
    · cases hdata.symm.trans hb
      exact hbytes
    · dsimp only at hle ⊢
      omega

/-- **What is queued is the chunk at hand**, with the bytes of the session's file. -/
theorem inv_queueing (hpc : s.reader.pc = .queueing) (h : s.readerStep io = some t) (hs : Inv s) :
    Inv t := by
  have hbusy : s.reader.pc ≠ .idle := by rw [hpc]; intro h; cases h
  have hwait : s.reader.pc ≠ .waiting := by rw [hpc]; intro h; cases h
  have hquiet := hs.quiet_of_busy hbusy hwait
  have hstage := hs.reader
  simp only [ReaderStage, hpc] at hstage
  obtain ⟨hchunk, hbuffer, hwindow, hin⟩ := hstage
  simp only [State.readerStep, hpc] at h
  split at h
  · cases h
    exact hs.trackDone hbusy hwait
  split at h
  · cases h
  · next buf hrd =>
    split at h
    · cases h
      obtain ⟨hstart, past, hdeliveries⟩ := hchunk.progress
      have hbounds := hchunk.bounds
      have hvalid := hchunk.valid
      have hlen : ownLen s.reader.session.file s.reader.chunkIndex =
          s.reader.chunkEnd - s.reader.chunkStart := by
        rw [ownLen, ← hbounds]
      have hbytes : slice (s.cart.readBuf buf) (s.reader.chunkStart - s.reader.windowStart)
          (s.reader.chunkEnd - s.reader.chunkStart) =
          ownBytes s.reader.session.file s.reader.chunkIndex := by
        have hle : s.reader.chunkStart ≤ s.reader.chunkEnd := hvalid.1
        have hfit : s.reader.chunkStart - s.reader.windowStart +
            (s.reader.chunkEnd - s.reader.chunkStart) ≤ s.reader.rdLen := by omega
        calc slice (s.cart.readBuf buf) (s.reader.chunkStart - s.reader.windowStart)
              (s.reader.chunkEnd - s.reader.chunkStart)
            = slice (slice (s.cart.readBuf buf) 0 s.reader.rdLen)
                (s.reader.chunkStart - s.reader.windowStart)
                (s.reader.chunkEnd - s.reader.chunkStart) := by
              rw [slice_slice _ hfit, Nat.zero_add]
          _ = slice s.reader.session.file
                (fileOffset s.reader.session s.reader.windowStart +
                  (s.reader.chunkStart - s.reader.windowStart))
                (s.reader.chunkEnd - s.reader.chunkStart) := by
              rw [hbuffer buf hrd, slice_slice _ hfit]
          _ = ownBytes s.reader.session.file s.reader.chunkIndex := by
              rw [ownBytes, hlen, ← hbounds, fileOffset, Nat.add_assoc,
                Nat.add_sub_cancel' hwindow]
      have hnext : s.delivered (s.reader.chunkIndex, slice (s.cart.readBuf buf)
          (s.reader.chunkStart - s.reader.windowStart)
          (s.reader.chunkEnd - s.reader.chunkStart)) =
          ⟨s.reader.session, ownMessages s.reader.session.file s.reader.session.startChunk
            (s.reader.chunkIndex + 1)⟩ :: past := by
        have hlong : chunkCrcBytes < ownLen s.reader.session.file s.reader.chunkIndex := by
          rw [hlen]
          exact hvalid.2.2.1
        rw [State.delivered, hdeliveries, hbytes, ownMessages_succ hstart hlong]
      refine hs.readerTo hbusy rfl ?_ ?_ fun _ => hquiet
      · dsimp only
        rw [hnext]
        intro d hd
        rcases List.mem_cons.mp hd with rfl | hd
        · exact ⟨_, hchunk.inTable, rfl⟩
        · exact hs.own d (by rw [hdeliveries]; exact List.mem_cons_of_mem _ hd)
      · dsimp only
        rw [hnext]
        exact ⟨fun _ => ⟨Nat.le_succ_of_le hstart, past, rfl⟩, hbuffer⟩
    · cases h

/-- The end of a session, and the clear of the idle bit before it. -/
theorem inv_around (hpc : s.reader.pc = .received ∨ s.reader.pc = .trackDone ∨
    s.reader.pc = .sendingEof ∨ s.reader.pc = .closing) (h : s.readerStep io = some t)
    (hs : Inv s) : Inv t := by
  have hbusy : s.reader.pc ≠ .idle := by
    rcases hpc with hpc | hpc | hpc | hpc
    all_goals
      rw [hpc]
      intro h
      cases h
  have hwait : s.reader.pc ≠ .waiting := by
    rcases hpc with hpc | hpc | hpc | hpc
    all_goals
      rw [hpc]
      intro h
      cases h
  rcases hpc with hpc | hpc | hpc | hpc
  · simp only [State.readerStep, hpc] at h
    cases h
    exact hs.readerMove hbusy hwait rfl trivial
  · simp only [State.readerStep, hpc] at h
    cases h
    exact hs.readerMove hbusy hwait rfl trivial
  · simp only [State.readerStep, hpc] at h
    split at h
    · cases h
      exact hs.readerMove hbusy hwait rfl trivial
    · split at h
      · cases h
        exact hs.readerMove hbusy hwait rfl trivial
      · cases h
  · simp only [State.readerStep, hpc] at h
    cases h
    exact hs.readerTo hbusy rfl hs.own trivial fun _ => hs.quiet_of_busy hbusy hwait

theorem inv_reader (h : s.readerStep io = some t) (hs : Inv s) : Inv t := by
  cases hpc : s.reader.pc with
  | idle => exact inv_receive hpc h hs
  | received => exact inv_around (.inl hpc) h hs
  | starting => exact inv_starting hpc h hs
  | loopTop => exact inv_loopTop hpc h hs
  | resolving => exact inv_resolving hpc h hs
  | checked => exact inv_checked hpc h hs
  | flushing => exact inv_flushing hpc h hs
  | taking => exact inv_taking hpc h hs
  | requesting => exact inv_requesting hpc h hs
  | copying offset => exact inv_copying hpc h hs
  | sending req => exact inv_sending hpc h hs
  | waiting => exact inv_waiting hpc h hs
  | resulting => exact inv_resulting hpc h hs
  | queueing => exact inv_queueing hpc h hs
  | trackDone => exact inv_around (.inr (.inl hpc)) h hs
  | sendingEof => exact inv_around (.inr (.inr (.inl hpc))) h hs
  | closing => exact inv_around (.inr (.inr (.inr hpc))) h hs

end Jukeboy.Player.ReaderSteps
