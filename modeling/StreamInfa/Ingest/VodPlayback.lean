import StreamInfa.Ingest.VodReady
import StreamInfa.Storage.Drained

/-!
What a player gets back of an uploaded file.

The pieces of the file go through the accumulators, the packager and the storage writer into the
segments of each rendition. When the file is READY and the writes are done, every rendition plays
the bytes of the file (`plays_of_ready`).
-/

namespace StreamInfa.Ingest

open Control Transcode Package Storage

/-! ### The segments of the file -/

section Segments

variable {cfg : VodConfig} {chunks : List Bytes}

theorem videoBytes_framesOf (cfg : VodConfig) (chunks : List Bytes) :
    videoBytes (packetsOf (cfg.framesOf chunks)) = chunks.flatten := by
  have hvideo : (packetsOf (cfg.framesOf chunks)).filter (fun p => !p.isAudio) =
      packetsOf (cfg.framesOf chunks) :=
    List.filter_eq_self.mpr fun p hp => by rw [(mem_packetsOf_framesOf hp).1]; rfl
  have hdata : (packetsOf (cfg.framesOf chunks)).map (·.data) = chunks := by
    refine List.ext_getElem? fun i => ?_
    simp only [packetsOf, VodConfig.framesOf, List.getElem?_map, List.getElem?_mapIdx,
      Option.map_map]
    exact Option.map_id'
  rw [videoBytes, hvideo, List.flatMap_def, hdata]

/-- A group of `n` pieces has no more than `n` times as many bytes as the buffer. -/
theorem length_videoBytes_le {group : List EncodedPacket}
    (h : ∀ p ∈ group, p.data.length ≤ readBufferLen) :
    (videoBytes group).length ≤ group.length * readBufferLen := by
  induction group with
  | nil => exact Nat.zero_le _
  | cons p group ih =>
    obtain ⟨hp, hgroup⟩ := List.forall_mem_cons.mp h
    have hle := ih hgroup
    have hcons : videoBytes (p :: group) = videoBytes [p] ++ videoBytes group :=
      videoBytes_append [p] group
    have hone : (videoBytes [p]).length ≤ p.data.length := by
      unfold videoBytes
      cases hvideo : p.isAudio <;> simp [hvideo]
    rw [hcons, List.length_append, List.length_cons, Nat.succ_mul]
    omega

/-- No segment of the file is longer than its target by more than a keyframe distance. -/
theorem length_emittedGroups_le {group : List EncodedPacket}
    (hlen : (packetsOf (cfg.framesOf chunks)).length ≤ 2 ^ 50)
    (hgroup : group ∈ emittedGroups ((cfg.keyframeIntervalSecs : ℚ) * 3)
      (packetsOf (cfg.framesOf chunks))) :
    group.length ≤ 90 * cfg.keyframeIntervalSecs + 61 := by
  obtain ⟨j, -, hnext, htail, hclosed⟩ :=
    steady_cut cfg.keyframeIntervalSecs (steady_framesOf cfg chunks) hlen
  have hfront := emittedGroups_prefix ((cfg.keyframeIntervalSecs : ℚ) * 3)
    (packetsOf (cfg.framesOf chunks))
  rcases List.mem_append.mp (hfront.subset hgroup) with hgroup | hgroup
  · exact hclosed group hgroup
  · have hstep := cutStart_succ_le cfg.keyframeIntervalSecs j
    rw [List.mem_singleton.mp hgroup, openTail, htail, List.length_drop]
    omega

theorem mem_of_mem_emittedGroups {target : ℚ} {packets group : List EncodedPacket}
    (hgroup : group ∈ emittedGroups target packets) : ∀ p ∈ group, p ∈ packets := by
  intro p hp
  have hall := flatten_cutFrom (closesSegment target) [] packets
  rw [← List.nil_append packets, ← hall]
  have hfront := emittedGroups_prefix target packets
  rcases List.mem_append.mp (hfront.subset hgroup) with hgroup | hgroup
  · exact List.mem_append_left _ (List.mem_flatten_of_mem hgroup hp)
  · rw [List.mem_singleton.mp hgroup] at hp
    exact List.mem_append_right _ hp

theorem exists_of_forall₂ {α β : Type*} {R : α → β → Prop} {xs : List α} {ys : List β} {x : α}
    (h : List.Forall₂ R xs ys) (hx : x ∈ xs) : ∃ y ∈ ys, R x y := by
  induction h with
  | nil => cases hx
  | @cons a b xs ys hab _ ih =>
    rcases List.mem_cons.mp hx with rfl | hx
    · exact ⟨b, List.mem_cons_self, hab⟩
    · obtain ⟨y, hy, hr⟩ := ih hx
      exact ⟨y, List.mem_cons_of_mem _ hy, hr⟩

/-- Every segment of the file fits a box, if keyframes are no more than 48 minutes apart. -/
theorem segment_fits {acc : SegmentAccumulator} (hfresh : Fresh acc)
    (htarget : acc.targetDurationSecs = (cfg.keyframeIntervalSecs : ℚ) * 3)
    (hinterval : cfg.keyframeIntervalSecs ≤ 2900) (hchunks : ∀ chunk ∈ chunks, IsChunk chunk)
    (hlen : (packetsOf (cfg.framesOf chunks)).length ≤ 2 ^ 50) :
    ∀ segment ∈ segmentsOf acc (cfg.framesOf chunks), segment.videoData.length + 8 < 2 ^ 32 := by
  intro segment hsegment
  obtain ⟨hcarry, -⟩ := segmentsOf_carry hfresh (cfg.framesOf chunks)
  rw [htarget] at hcarry
  obtain ⟨group, hgroup, hcarries⟩ := exists_of_forall₂ hcarry hsegment
  have hcount := length_emittedGroups_le hlen hgroup
  have hbytes : (videoBytes group).length ≤ group.length * readBufferLen :=
    length_videoBytes_le fun p hp =>
      (hchunks _ (mem_packetsOf_framesOf (mem_of_mem_emittedGroups hgroup p hp)).2).2
  have hmost : group.length * readBufferLen ≤ 261061 * 16384 :=
    Nat.mul_le_mul (by omega) (Nat.le_refl _)
  rw [hcarries.video]
  omega

end Segments

/-! ### What the packager takes -/

section Input

variable {cfg : VodConfig} {chunks : List Bytes} {input : List (EncodedSegment × DateTime)}

theorem map_ownInput (r : RenditionId) (input : List (EncodedSegment × DateTime)) :
    (ownInput r input).map Prod.fst = ownSegments r (input.map Prod.fst) := by
  rw [ownInput, ownSegments, List.filter_map]
  rfl

/-- The segments of a selected rendition are those of its own accumulator. -/
theorem exists_accumulator (hids : cfg.ids.Nodup) {r : RenditionId} (hr : r ∈ cfg.ids)
    (frames : List DemuxedFrame) : ∃ acc, Fresh acc ∧
      acc.targetDurationSecs = (cfg.keyframeIntervalSecs : ℚ) * 3 ∧
        ownSegments r (sentBy cfg.accumulators frames) = segmentsOf acc frames := by
  have hall : cfg.accumulators.map (·.rendition) = cfg.ids := by
    rw [VodConfig.accumulators, VodConfig.ids, List.map_map]
    rfl
  rw [← hall] at hids hr
  have hid := List.count_eq_one_of_mem hids hr
  obtain ⟨acc, hacc, rfl⟩ := List.mem_map.mp hr
  obtain ⟨hfresh, htarget⟩ := fresh_vodAccumulators cfg acc hacc
  exact ⟨acc, hfresh, htarget, ownSegments_sentBy hacc hid frames⟩

/-- The accumulators number the segments as the packager's playlists count them. -/
theorem numbered_sentBy (hids : cfg.ids.Nodup)
    (hinput : input.map Prod.fst = sentBy cfg.accumulators (cfg.framesOf chunks)) :
    Numbered input := by
  have hown : ∀ r, (∃ acc, Fresh acc ∧
      (ownInput r input).map Prod.fst = segmentsOf acc (cfg.framesOf chunks)) ∨
        ownInput r input = [] := by
    intro r
    by_cases hr : r ∈ cfg.ids
    · obtain ⟨acc, hfresh, -, hsegments⟩ := exists_accumulator hids hr (cfg.framesOf chunks)
      exact .inl ⟨acc, hfresh, by rw [map_ownInput, hinput, hsegments]⟩
    · refine .inr (List.filter_eq_nil_iff.mpr fun x hx hrendition => hr ?_)
      have hmem : x.1 ∈ sentBy cfg.accumulators (cfg.framesOf chunks) :=
        hinput ▸ List.mem_map_of_mem hx
      have hone := rendition_mem_of_sentBy hmem
      rw [of_decide_eq_true hrendition, VodConfig.accumulators, List.map_map] at hone
      exact hone
  constructor
  · intro r
    rcases hown r with ⟨acc, hfresh, hsegments⟩ | hnil
    · have hseqs := (segmentsOf_carry hfresh (cfg.framesOf chunks)).2.1
      rw [← hsegments, List.map_map, List.length_map] at hseqs
      exact hseqs
    · rw [hnil]
      rfl
  · intro r x hx
    rcases hown r with ⟨acc, hfresh, hsegments⟩ | hnil
    · have hlasts := (segmentsOf_carry hfresh (cfg.framesOf chunks)).2.2.1
      rw [← hsegments, ← List.map_dropLast] at hlasts
      exact hlasts x.1 (List.mem_map_of_mem hx)
    · rw [hnil] at hx
      cases hx

/-- **The packaged file plays back.** Where the store holds the last writes, a player gets the
bytes of the pieces for every rendition, unless they end right behind a cut. -/
theorem playVod_sentBy (hinterval : cfg.keyframeIntervalSecs ≤ 2900) (hids : cfg.ids.Nodup)
    (hchunks : ∀ chunk ∈ chunks, IsChunk chunk)
    (hlen : (packetsOf (cfg.framesOf chunks)).length ≤ 2 ^ 50)
    (htail : videoBytes (openTail ((cfg.keyframeIntervalSecs : ℚ) * 3)
      (packetsOf (cfg.framesOf chunks))) ≠ [])
    (hinput : input.map Prod.fst = sentBy cfg.accumulators (cfg.framesOf chunks))
    {fetch : Text → Option Bytes}
    (hfetch : HoldsLast (packagerTrace cfg.packagerEnv input) fetch) {r : RenditionId}
    (hr : r ∈ cfg.ids) :
    playVod fetch cfg.streamId.toText r.asStr = some chunks.flatten := by
  obtain ⟨acc, hfresh, htarget, hown⟩ := exists_accumulator hids hr (cfg.framesOf chunks)
  have hsegments : (ownInput r input).map Prod.fst = segmentsOf acc (cfg.framesOf chunks) := by
    rw [map_ownInput, hinput, hown]
  have hlast : ∃ x, (ownInput r input).getLast? = some x ∧ x.1.isLast = true := by
    obtain ⟨s, hs, hend⟩ := (segmentsOf_carry hfresh (cfg.framesOf chunks)).2.2.2.2
      (htarget ▸ htail)
    rw [← hsegments, List.getLast?_map] at hs
    obtain ⟨x, hx, rfl⟩ := Option.map_eq_some_iff.mp hs
    exact ⟨x, hx, hend⟩
  have hsize : ∀ x ∈ ownInput r input, x.1.videoData.length + 8 < 2 ^ 32 := by
    intro x hx
    refine segment_fits hfresh htarget hinterval hchunks hlen x.1 ?_
    rw [← hsegments]
    exact List.mem_map_of_mem hx
  have hplay := playVod_packagerTrace (r := r) rfl (numbered_sentBy hids hinput) hlast hsize hfetch
  rw [hsegments, segmentsVideo_segmentsOf hfresh, videoBytes_framesOf] at hplay
  exact hplay

end Input

/-! ### The end of the file -/

/-- **A READY file plays back.** When all tasks of an uploaded file are done and its record is
READY, and a run of the storage writer has put all that the packager wrote, with no put given up
and no last write overtaken: a player that reads the playlist of any of the renditions gets the
file, byte for byte. -/
theorem plays_of_ready {cfg : VodConfig} {m : StreamStateManager} {entry final : StreamEntry}
    {as : List VodAction} {s : VodTasks} {store : MediaStore} {puts : List WriterAction}
    {writer : Writer} (hsize : cfg.file.length ≤ 2 ^ 50)
    (hinterval : cfg.keyframeIntervalSecs ≤ 2900)
    (hentry : m.streams.lookup cfg.streamId = some entry) (hawaiting : Awaiting entry)
    (hrun : run (vodStep cfg) (.start m) as = some s) (hsettled : s.Settled)
    (hfinal : s.manager.streams.lookup cfg.streamId = some final) (hready : final.state = .ready)
    (hputs : Meets writerStep (fun s a => PutsSucceed s a ∧ KeepsLast s a)
      (Writer.start s.packager.writes store) puts)
    (hwriter : run writerStep (Writer.start s.packager.writes store) puts = some writer)
    (hdone : writer.received = writer.channel.length ∧ writer.tasks = []) :
    ∀ r ∈ cfg.ids, playVod (fun path => (writer.store.lookup path).map StoredObject.data)
      cfg.streamId.toText r.asStr = some cfg.file := by
  obtain ⟨final', hfinal', hcases⟩ := settled_cases hsize hentry hawaiting hrun hsettled
  obtain rfl := Option.some.inj (hfinal.symm.trans hfinal')
  -- Of the three ways to end, this is the one with READY.
  obtain ⟨hfails, hids, hcut⟩ : ¬ cfg.Fails as ∧ cfg.Completes as := by
    rcases hcases with ⟨-, hstate⟩ | ⟨hfails, hcompletes, -⟩ | ⟨-, -, hstate⟩
    · rw [hready] at hstate
      cases hstate
    · exact ⟨hfails, hcompletes⟩
    · rw [hready] at hstate
      cases hstate
  obtain ⟨out, hstaged⟩ := staged_of_run hrun
  have hsome : cfg.renditions ≠ [] := fun hnone =>
    hfails (.inl ((selectRenditions_eq_nil_iff _ _ _).mp hnone))
  have hfed : s.feeder = .done :=
    done_of_settled hstaged hsettled hsome (Bool.eq_false_iff.mpr fun h => hfails (.inr h))
  obtain ⟨chunks, hchunks, hfile, hcount, hout⟩ := sent_of_settled hstaged hsettled hsome hfed
  obtain ⟨input, hinput, hwrites⟩ := hstaged.exists_input hsettled
  have hlen : (packetsOf (cfg.framesOf chunks)).length ≤ 2 ^ 50 := by
    rw [length_packetsOf_framesOf]
    exact (length_le_flatten hchunks).trans (hfile ▸ hsize)
  have htail := mt (openTail_framesOf_eq_nil_iff hsize hchunks hfile).mp fun ⟨j, hj⟩ =>
    hcut j (hcount.symm.trans hj)
  rw [hwrites] at hputs hwriter
  intro r hr
  rw [← hfile]
  exact playVod_sentBy hinterval hids hchunks hlen htail (hinput.trans hout)
    (holdsLast_of_run hputs hwriter hdone) hr

end StreamInfa.Ingest
