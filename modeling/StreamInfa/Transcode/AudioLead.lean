import StreamInfa.Transcode.Independent

/-!
Whether audio moves the cuts of the video.

The accumulator starts a segment at the first packet after a cut, of either kind. The
start decides where the next cut is, and it becomes the decode time of the video
track. So the video comes out as it would without audio when the packet that starts a
segment has the timestamp of its first video packet.

* `audioFree_iff` — for every packet sequence: that condition, at every start of a
  segment that will be cut with or without the audio, is exactly what is needed.
* `audio_ahead_moves_start` — audio that runs ahead of the video breaks it.
-/

namespace StreamInfa.Transcode

open SegmentAccumulator

/-- The packets without the audio. -/
def videoPackets (ps : List EncodedPacket) : List EncodedPacket := ps.filter fun p => !p.isAudio

/-- Number, start, duration and video of the segments that `push` emits. -/
def videoCut (acc : SegmentAccumulator) (ps : List EncodedPacket) :
    List (ℕ × Int64 × ℚ × Bytes) :=
  (acc.pushAll ps).1.map fun s => (s.sequence, s.ptsStart, s.durationSecs, s.videoData)

/-- Audio does not show in the video: the cut is that of the video packets alone, and
every segment starts at its first video packet. -/
def AudioFree (acc : SegmentAccumulator) (ps : List EncodedPacket) : Prop :=
  videoCut acc ps = videoCut acc (videoPackets ps) ∧
    ∀ s ∈ (acc.pushAll ps).1,
      (videoPackets (segmentPackets acc ps s)).head?.map (·.pts) = some s.ptsStart

instance (acc : SegmentAccumulator) (ps : List EncodedPacket) : Decidable (AudioFree acc ps) :=
  inferInstanceAs (Decidable (_ ∧ _))

/-- The packet closes a segment that started at `start`. -/
def cutsAt (target : ℚ) (start : Int64) (p : EncodedPacket) : Bool :=
  !p.isAudio && p.keyframe && decide (target ≤ ticksToSecs (p.pts - start))

/-- One of the packets closes the segment that starts with the first of them. -/
def ReachesCut (target : ℚ) (ps : List EncodedPacket) : Prop :=
  ∃ a ∈ ps.head?, ∃ p ∈ ps, cutsAt target a.pts p = true

/-- At the start and after each cut, the next packet has the timestamp of the next video
packet, unless no cut will come, with the audio or without it. -/
def VideoLeads (target : ℚ) (ps : List EncodedPacket) : Prop :=
  ∀ before rest, ps = before ++ rest → openTail target before = [] →
    ReachesCut target rest ∨ ReachesCut target (videoPackets rest) →
    rest.head?.map (·.pts) = (videoPackets rest).head?.map (·.pts)

/-! ### The first cut -/

section Cut

variable {target : ℚ} {a p : EncodedPacket} {o ps before rest : List EncodedPacket}

theorem closesSegment_append (hhead : (o ++ [p]).head? = some a) :
    closesSegment target (o ++ [p]) = cutsAt target a.pts p := by
  simp only [closesSegment, hhead, List.getLast?_append, List.getLast?_singleton, Option.some_or,
    cutsAt]

/-- Packets that do not close the open segment join it. -/
theorem cutFrom_of_not_cuts (hhead : (o ++ ps).head? = some a)
    (hno : ∀ q ∈ ps, cutsAt target a.pts q = false) :
    cutFrom (closesSegment target) o ps = ([], o ++ ps) := by
  induction ps generalizing o with
  | nil => rw [cutFrom, List.append_nil]
  | cons q ps ih =>
    obtain ⟨hq, hps⟩ := List.forall_mem_cons.mp hno
    have hopen : (o ++ [q]).head? = some a := by
      cases o with
      | nil => exact hhead
      | cons b o => exact hhead
    have hjoin : o ++ q :: ps = o ++ [q] ++ ps := by simp
    rw [cutFrom_cons_of_not_closes (by rw [closesSegment_append hopen, hq]), hjoin]
    exact ih (by rw [← hjoin]; exact hhead) hps

/-- The first packet that closes the segment cuts it, and the rest starts anew. -/
theorem cutFrom_first (hhead : (before ++ [p]).head? = some a)
    (hno : ∀ q ∈ before, cutsAt target a.pts q = false) (hp : cutsAt target a.pts p = true) :
    cutFrom (closesSegment target) [] (before ++ p :: rest) =
      ((before ++ [p]) :: (cutFrom (closesSegment target) [] rest).1,
        (cutFrom (closesSegment target) [] rest).2) := by
  have hbefore : cutFrom (closesSegment target) [] before = ([], before) := by
    cases before with
    | nil => rfl
    | cons b before => exact cutFrom_of_not_cuts hhead hno
  rw [cutFrom_append, hbefore]
  have hcloses : closesSegment target (before ++ [p]) = true := by
    rw [closesSegment_append hhead, hp]
  rw [cutFrom_cons_of_closes hcloses, List.nil_append]

theorem openTail_of_not_cuts (hhead : ps.head? = some a)
    (hno : ∀ q ∈ ps, cutsAt target a.pts q = false) : openTail target ps = ps := by
  rw [openTail, cutFrom_of_not_cuts (o := []) hhead hno, List.nil_append]

/-- A sequence without a cut, or its first cut. -/
theorem first_cut_cases (target : ℚ) (hhead : ps.head? = some a) :
    (∀ q ∈ ps, cutsAt target a.pts q = false) ∨
      ∃ before p rest, ps = before ++ p :: rest ∧ (before ++ [p]).head? = some a ∧
        (∀ q ∈ before, cutsAt target a.pts q = false) ∧ cutsAt target a.pts p = true := by
  cases hfind : ps.find? (cutsAt target a.pts) with
  | none =>
    refine .inl fun q hq => ?_
    simpa using List.find?_eq_none.mp hfind q hq
  | some p =>
    obtain ⟨hp, before, rest, rfl, hno⟩ := List.find?_eq_some_iff_append.mp hfind
    refine .inr ⟨before, p, rest, rfl, ?_, fun q hq => by simpa using hno q hq, hp⟩
    cases before with
    | nil => exact hhead
    | cons b before => exact hhead

theorem not_reachesCut (hhead : ps.head? = some a)
    (hno : ∀ q ∈ ps, cutsAt target a.pts q = false) : ¬ReachesCut target ps := by
  rintro ⟨b, hb, q, hq, hcut⟩
  rw [hhead] at hb
  obtain rfl := Option.some.inj hb
  rw [hno q hq] at hcut
  exact absurd hcut (by simp)

end Cut

/-! ### Start, duration and video of a group -/

/-- What `push` reports of a group: start, duration and video. -/
def describe (g : List EncodedPacket) : Int64 × ℚ × Bytes :=
  let start := (g.head?.map (·.pts)).getD 0
  (start, ticksToSecs ((g.getLast?.map (·.pts)).getD 0 - start), videoBytes g)

/-- The closed groups of a sequence, described. -/
def cutDescriptions (target : ℚ) (ps : List EncodedPacket) : List (Int64 × ℚ × Bytes) :=
  (cutFrom (closesSegment target) [] ps).1.map describe

theorem describe_of_carries {s : EncodedSegment} {g : List EncodedPacket} (h : Carries s g)
    (hne : g ≠ []) : (s.ptsStart, s.durationSecs, s.videoData) = describe g := by
  obtain ⟨p, hp⟩ : ∃ p, g.getLast? = some p := ⟨g.getLast hne, List.getLast?_eq_some_getLast hne⟩
  rw [describe, h.ptsStart, h.duration p hp, h.video, hp, Option.map_some, Option.getD_some]

theorem videoBytes_videoPackets (ps : List EncodedPacket) :
    videoBytes (videoPackets ps) = videoBytes ps := by
  simp only [videoBytes, videoPackets, List.filter_filter, Bool.and_self]

/-- The groups that are closed by the same video packet, with starts at one time, look
the same without their audio. -/
theorem describe_videoPackets {before : List EncodedPacket} {p : EncodedPacket}
    (hvideo : p.isAudio = false)
    (hstart : (before ++ [p]).head?.map (·.pts) =
      (videoPackets (before ++ [p])).head?.map (·.pts)) :
    describe (videoPackets (before ++ [p])) = describe (before ++ [p]) := by
  have hlast : (videoPackets (before ++ [p])).getLast? = some p := by
    simp [videoPackets, List.filter_append, hvideo]
  rw [describe, ← hstart, videoBytes_videoPackets, hlast, describe, List.getLast?_concat]

/-! ### The condition, cut by cut -/

section Leads

variable {target : ℚ} {a p : EncodedPacket} {ps before rest : List EncodedPacket}

/-- The condition at the start of the sequence. -/
def LeadsNow (target : ℚ) (ps : List EncodedPacket) : Prop :=
  ReachesCut target ps ∨ ReachesCut target (videoPackets ps) →
    ps.head?.map (·.pts) = (videoPackets ps).head?.map (·.pts)

/-- Without a cut, only the start counts. -/
theorem videoLeads_of_not_cuts (hhead : ps.head? = some a)
    (hno : ∀ q ∈ ps, cutsAt target a.pts q = false) :
    VideoLeads target ps ↔ LeadsNow target ps := by
  constructor
  · intro h
    exact h [] ps rfl rfl
  · rintro hnow before rest rfl hopen
    cases before with
    | nil => exact hnow
    | cons b before =>
      -- Packets since the start are still open.
      have hall : openTail target (b :: before) = b :: before :=
        openTail_of_not_cuts hhead fun q hq => hno q (List.mem_append_left _ hq)
      rw [hall] at hopen
      exact absurd hopen (List.cons_ne_nil b before)

theorem videoLeads_of_first_cut (hhead : (before ++ [p]).head? = some a)
    (hno : ∀ q ∈ before, cutsAt target a.pts q = false) (hp : cutsAt target a.pts p = true) :
    VideoLeads target (before ++ p :: rest) ↔
      LeadsNow target (before ++ p :: rest) ∧ VideoLeads target rest := by
  have hafter : ∀ xs, openTail target (before ++ p :: xs) = openTail target xs := by
    intro xs
    rw [openTail, cutFrom_first hhead hno hp, openTail]
  -- Before the cut, the packets since the start are still open.
  have hbefore : ∀ xs, xs <+: before → openTail target xs = [] → xs = [] := by
    rintro xs ⟨zs, rfl⟩ hopen
    cases xs with
    | nil => rfl
    | cons b xs =>
      have hall : openTail target (b :: xs) = b :: xs :=
        openTail_of_not_cuts hhead fun q hq => hno q (List.mem_append_left _ hq)
      rwa [hall] at hopen
  constructor
  · intro h
    refine ⟨h [] _ rfl rfl, fun xs ys hrest hopen => ?_⟩
    refine h (before ++ p :: xs) ys (by rw [hrest]; simp) ?_
    rw [hafter, hopen]
  · rintro ⟨hnow, hlater⟩ xs ys hsplit hopen
    rcases List.append_eq_append_iff.mp hsplit with ⟨zs, hxs, hzs⟩ | ⟨zs, hxs, hys⟩
    · cases zs with
      | nil =>
        rw [List.append_nil] at hxs
        obtain rfl := hbefore xs (hxs ▸ List.prefix_refl _) hopen
        rw [List.nil_append] at hsplit
        rwa [← hsplit]
      | cons z zs =>
        obtain ⟨rfl, hrest⟩ := List.cons.inj hzs
        rw [hxs, hafter] at hopen
        exact hlater zs ys hrest hopen
    · obtain rfl := hbefore xs ⟨zs, hxs.symm⟩ hopen
      rw [List.nil_append] at hsplit
      rwa [← hsplit]

theorem cutDescriptions_of_first_cut (hhead : (before ++ [p]).head? = some a)
    (hno : ∀ q ∈ before, cutsAt target a.pts q = false) (hp : cutsAt target a.pts p = true) :
    cutDescriptions target (before ++ p :: rest) =
      describe (before ++ [p]) :: cutDescriptions target rest := by
  rw [cutDescriptions, cutFrom_first hhead hno hp, List.map_cons, cutDescriptions]

theorem cutDescriptions_eq_nil (h : ¬ReachesCut target ps) : cutDescriptions target ps = [] := by
  cases hhead : ps.head? with
  | none =>
    rw [List.head?_eq_none_iff.mp hhead]
    rfl
  | some a =>
    rcases first_cut_cases target hhead with hno | ⟨before, p, rest, rfl, hgroup, hno, hp⟩
    · rw [cutDescriptions, cutFrom_of_not_cuts (o := []) hhead hno]
      rfl
    · exact absurd ⟨a, hhead, p, by simp, hp⟩ h

/-- The first description tells when the sequence starts. -/
theorem cutDescriptions_start (hhead : ps.head? = some a) (h : ReachesCut target ps) :
    (cutDescriptions target ps).head?.map Prod.fst = some a.pts := by
  rcases first_cut_cases target hhead with hno | ⟨before, p, rest, rfl, hgroup, hno, hp⟩
  · exact absurd h (not_reachesCut hhead hno)
  · rw [cutDescriptions_of_first_cut hgroup hno hp, List.head?_cons, Option.map_some, describe,
      hgroup, Option.map_some, Option.getD_some]

theorem reachesCut_iff : ReachesCut target ps ↔ cutDescriptions target ps ≠ [] := by
  constructor
  · rintro ⟨a, hhead, hcut⟩ hnil
    have hstart := cutDescriptions_start (Option.mem_def.mp hhead) ⟨a, hhead, hcut⟩
    rw [hnil] at hstart
    exact absurd hstart (by simp)
  · intro hne
    by_contra h
    exact hne (cutDescriptions_eq_nil h)

/-- Equal cuts start at the same time. -/
theorem start_eq_of_cutDescriptions_eq {qs : List EncodedPacket}
    (hreach : ReachesCut target ps ∨ ReachesCut target qs)
    (heq : cutDescriptions target ps = cutDescriptions target qs) :
    ps.head?.map (·.pts) = qs.head?.map (·.pts) := by
  have hps : ReachesCut target ps := by
    rw [reachesCut_iff, reachesCut_iff, ← heq, or_self] at hreach
    exact reachesCut_iff.mpr hreach
  have hqs : ReachesCut target qs := by
    rw [reachesCut_iff, ← heq]
    exact reachesCut_iff.mp hps
  obtain ⟨a, ha, -⟩ := id hps
  obtain ⟨b, hb, -⟩ := id hqs
  have hp := cutDescriptions_start (Option.mem_def.mp ha) hps
  have hq := cutDescriptions_start (Option.mem_def.mp hb) hqs
  rw [heq, hq] at hp
  rw [Option.mem_def.mp ha, Option.mem_def.mp hb, Option.map_some, Option.map_some, hp]

theorem cutsAt_video (h : cutsAt target a.pts p = true) : p.isAudio = false := by
  simp only [cutsAt, Bool.and_eq_true, Bool.not_eq_true'] at h
  exact h.1.1

/-- Where the sequence without audio starts at the same time and the sequence reaches no
cut, it reaches none without audio either. -/
theorem not_reachesCut_videoPackets (hhead : ps.head? = some a)
    (hno : ∀ q ∈ ps, cutsAt target a.pts q = false) (hnow : LeadsNow target ps) :
    ¬ReachesCut target (videoPackets ps) := by
  intro hreach
  have hstart := hnow (.inr hreach)
  obtain ⟨v, hv, q, hq, hcut⟩ := hreach
  rw [hhead, Option.mem_def.mp hv, Option.map_some, Option.map_some, Option.some.injEq] at hstart
  rw [← hstart, hno q (List.mem_of_mem_filter hq)] at hcut
  exact absurd hcut (by simp)

theorem videoPackets_append (ps qs : List EncodedPacket) :
    videoPackets (ps ++ qs) = videoPackets ps ++ videoPackets qs := List.filter_append ..

theorem videoPackets_cut (hp : cutsAt target a.pts p = true) : videoPackets [p] = [p] := by
  simp [videoPackets, cutsAt_video hp]

/-- The group that the first cut closes starts at its first video packet. -/
theorem start_of_first_group (hhead : (before ++ [p]).head? = some a)
    (hp : cutsAt target a.pts p = true) (hnow : LeadsNow target (before ++ p :: rest)) :
    ∃ v, (videoPackets (before ++ [p])).head? = some v ∧ a.pts = v.pts := by
  have hjoin : before ++ p :: rest = before ++ [p] ++ rest := by simp
  rw [hjoin] at hnow
  obtain ⟨v, hv⟩ : ∃ v, (videoPackets (before ++ [p])).head? = some v := by
    rw [videoPackets_append, videoPackets_cut hp]
    cases videoPackets before with
    | nil => exact ⟨p, rfl⟩
    | cons b bs => exact ⟨b, rfl⟩
  have hfirst : (before ++ [p] ++ rest).head? = some a := by
    rw [List.head?_append, hhead, Option.some_or]
  have hvideoFirst : (videoPackets (before ++ [p] ++ rest)).head? = some v := by
    rw [videoPackets_append, List.head?_append, hv, Option.some_or]
  have hstart := hnow (.inl ⟨a, hfirst, p, by simp, hp⟩)
  rw [hfirst, hvideoFirst, Option.map_some, Option.map_some, Option.some.injEq] at hstart
  exact ⟨v, hv, hstart⟩

/-- A first cut at the same time in both: the first groups look the same. -/
theorem cutDescriptions_videoPackets_of_first_cut (hhead : (before ++ [p]).head? = some a)
    (hno : ∀ q ∈ before, cutsAt target a.pts q = false) (hp : cutsAt target a.pts p = true)
    (hnow : LeadsNow target (before ++ p :: rest)) :
    cutDescriptions target (videoPackets (before ++ p :: rest)) =
      describe (before ++ [p]) :: cutDescriptions target (videoPackets rest) := by
  obtain ⟨v, hv, hstart⟩ := start_of_first_group hhead hp hnow
  have hgroup : videoPackets (before ++ [p]) = videoPackets before ++ [p] := by
    rw [videoPackets_append, videoPackets_cut hp]
  have hsplit : videoPackets (before ++ p :: rest) =
      videoPackets before ++ p :: videoPackets rest := by
    rw [← List.singleton_append, videoPackets_append, videoPackets_append, videoPackets_cut hp,
      List.singleton_append]
  have hsame : (before ++ [p]).head?.map (·.pts) =
      (videoPackets (before ++ [p])).head?.map (·.pts) := by
    rw [hhead, hv, Option.map_some, Option.map_some, hstart]
  rw [← describe_videoPackets (cutsAt_video hp) hsame, hsplit, hgroup]
  rw [hstart] at hno hp
  exact cutDescriptions_of_first_cut (hgroup ▸ hv)
    (fun q hq => hno q (List.mem_of_mem_filter hq)) hp

/-- **The cut is that of the video exactly when video leads.** -/
theorem cutDescriptions_videoPackets_iff (target : ℚ) (ps : List EncodedPacket) :
    cutDescriptions target ps = cutDescriptions target (videoPackets ps) ↔
      VideoLeads target ps := by
  induction hn : ps.length using Nat.strong_induction_on generalizing ps with
  | _ n ih =>
    subst hn
    cases hhead : ps.head? with
    | none =>
      obtain rfl := List.head?_eq_none_iff.mp hhead
      refine iff_of_true rfl fun before rest hps _ _ => ?_
      obtain ⟨-, rfl⟩ := List.append_eq_nil_iff.mp hps.symm
      rfl
    | some a =>
      by_cases hnow : LeadsNow target ps
      · rcases first_cut_cases target hhead with hno | ⟨before, p, rest, rfl, hgroup, hno, hp⟩
        · rw [videoLeads_of_not_cuts hhead hno, cutDescriptions_eq_nil (not_reachesCut hhead hno),
            cutDescriptions_eq_nil (not_reachesCut_videoPackets hhead hno hnow)]
          exact iff_of_true rfl hnow
        · have hshort : rest.length < (before ++ p :: rest).length := by
            rw [List.length_append, List.length_cons]
            omega
          rw [videoLeads_of_first_cut hgroup hno hp, ← ih rest.length hshort rest rfl,
            cutDescriptions_of_first_cut hgroup hno hp,
            cutDescriptions_videoPackets_of_first_cut hgroup hno hp hnow, List.cons.injEq]
          exact ⟨fun h => ⟨hnow, h.2⟩, fun h => ⟨rfl, h.2⟩⟩
      · refine iff_of_false (fun heq => hnow fun hreach => ?_) fun h => hnow (h [] ps rfl rfl)
        exact start_eq_of_cutDescriptions_eq hreach heq

/-- Where video leads, every closed group starts at its first video packet. -/
theorem start_of_closed_group (h : VideoLeads target ps) :
    ∀ g ∈ (cutFrom (closesSegment target) [] ps).1,
      (videoPackets g).head?.map (·.pts) = g.head?.map (·.pts) := by
  induction hn : ps.length using Nat.strong_induction_on generalizing ps with
  | _ n ih =>
    subst hn
    cases hhead : ps.head? with
    | none =>
      obtain rfl := List.head?_eq_none_iff.mp hhead
      exact fun g hg => absurd hg List.not_mem_nil
    | some a =>
      rcases first_cut_cases target hhead with hno | ⟨before, p, rest, rfl, hgroup, hno, hp⟩
      · rw [cutFrom_of_not_cuts (o := []) hhead hno]
        exact fun g hg => absurd hg List.not_mem_nil
      · obtain ⟨hnow, hlater⟩ := (videoLeads_of_first_cut hgroup hno hp).mp h
        have hshort : rest.length < (before ++ p :: rest).length := by
          rw [List.length_append, List.length_cons]
          omega
        rw [cutFrom_first hgroup hno hp]
        refine List.forall_mem_cons.mpr ⟨?_, ih rest.length hshort hlater rfl⟩
        obtain ⟨v, hv, hstart⟩ := start_of_first_group hgroup hp hnow
        rw [hv, hgroup, Option.map_some, Option.map_some, hstart]

end Leads

/-! ### The segments of a rendition -/

section Rendition

variable (streamId : StreamId) (rendition : RenditionId) (target : ℚ)
  (width height videoKbps audioKbps : UInt32) (profile level : Text) (frameRate : ℚ)

theorem ne_nil_of_closed {target : ℚ} {o ps g : List EncodedPacket}
    (h : g ∈ (cutFrom (closesSegment target) o ps).1) : g ≠ [] := by
  obtain ⟨p, hp, -⟩ := exists_video_of_closes (closes_of_mem_cutFrom h)
  exact List.ne_nil_of_mem hp

theorem map_describe_of_carries {segs : List EncodedSegment} {groups : List (List EncodedPacket)}
    (h : List.Forall₂ Carries segs groups) (hne : ∀ g ∈ groups, g ≠ []) :
    segs.map (fun s => (s.ptsStart, s.durationSecs, s.videoData)) = groups.map describe := by
  induction h with
  | nil => rfl
  | cons hcarries _ ih =>
    obtain ⟨hg, hgroups⟩ := List.forall_mem_cons.mp hne
    rw [List.map_cons, List.map_cons, describe_of_carries hcarries hg, ih hgroups]

theorem videoCut_new (ps : List EncodedPacket) :
    videoCut (new streamId rendition target width height videoKbps audioKbps profile level
      frameRate) ps =
      (List.range (cutDescriptions target ps).length).zip (cutDescriptions target ps) := by
  obtain ⟨hall, hseqs, -, -, -⟩ := pushAll_eq_cut (new_holds streamId rendition target width
    height videoKbps audioKbps profile level frameRate) ps
  have hrest := map_describe_of_carries hall fun g hg => ne_nil_of_closed hg
  have hlength : (cutDescriptions target ps).length =
      (cutFrom (closesSegment target) [] ps).1.length := List.length_map _
  rw [videoCut, ← List.zip_map', hseqs, hrest, hlength, List.range_eq_range']
  rfl

theorem videoCut_eq_iff (ps qs : List EncodedPacket) :
    let acc := new streamId rendition target width height videoKbps audioKbps profile level
      frameRate
    videoCut acc ps = videoCut acc qs ↔ cutDescriptions target ps = cutDescriptions target qs := by
  intro acc
  rw [videoCut_new, videoCut_new]
  constructor
  · intro h
    have hsnd := congrArg (List.map Prod.snd) h
    rwa [List.map_snd_zip (by simp), List.map_snd_zip (by simp)] at hsnd
  · intro h
    rw [h]

/-- A segment that `push` emits carries its packets, which are a closed group. -/
theorem pushAll_packets (ps : List EncodedPacket) :
    let acc := new streamId rendition target width height videoKbps audioKbps profile level
      frameRate
    ∀ s ∈ (acc.pushAll ps).1, Carries s (segmentPackets acc ps s) ∧
      segmentPackets acc ps s ∈ (cutFrom (closesSegment target) [] ps).1 := by
  intro acc
  obtain ⟨hall, -⟩ := pushAll_eq_cut (new_holds streamId rendition target width height videoKbps
    audioKbps profile level frameRate) ps
  have hpackets : ((acc.pushAll ps).1 ++ (acc.pushAll ps).2.flush.toList).map
      (segmentPackets acc ps) = emittedGroups target ps :=
    segmentPackets_eq streamId rendition target width height videoKbps audioKbps profile level
      frameRate ps
  rw [List.map_append, emittedGroups] at hpackets
  have hclosed := (List.append_inj hpackets (by rw [List.length_map]; exact hall.length_eq)).1
  have hcarry : ∀ s ∈ (acc.pushAll ps).1, Carries s (segmentPackets acc ps s) := by
    have hmap : List.Forall₂ Carries (acc.pushAll ps).1
        ((acc.pushAll ps).1.map (segmentPackets acc ps)) := by
      rw [hclosed]
      exact hall
    exact List.forall₂_same.mp (List.forall₂_map_right_iff.mp hmap)
  intro s hs
  refine ⟨hcarry s hs, ?_⟩
  rw [← hclosed]
  exact List.mem_map_of_mem hs

/-- **Audio does not show in the video exactly when video leads.** For every packet
sequence pushed into a new accumulator. -/
theorem audioFree_iff (ps : List EncodedPacket) :
    AudioFree (new streamId rendition target width height videoKbps audioKbps profile level
      frameRate) ps ↔ VideoLeads target ps := by
  have hcut := (videoCut_eq_iff streamId rendition target width height videoKbps audioKbps profile
    level frameRate ps (videoPackets ps)).trans (cutDescriptions_videoPackets_iff target ps)
  constructor
  · intro hfree
    exact hcut.mp hfree.1
  · intro hleads
    refine ⟨hcut.mpr hleads, fun s hs => ?_⟩
    obtain ⟨hcarries, hgroup⟩ := pushAll_packets streamId rendition target width height videoKbps
      audioKbps profile level frameRate ps s hs
    obtain ⟨a, rest, hpackets⟩ := List.exists_cons_of_ne_nil (ne_nil_of_closed hgroup)
    have hstart := hcarries.ptsStart
    rw [start_of_closed_group hleads _ hgroup]
    rw [hpackets, List.head?_cons, Option.map_some] at hstart ⊢
    rw [hstart, Option.getD_some]

end Rendition

/-- Audio runs ahead of the video: after the cut at six seconds, the first packet is an
audio packet from before the next frame. -/
def audioAhead : List EncodedPacket :=
  [{ pts := 0, dts := 0, keyframe := true, data := [0x65], isAudio := false },
    { pts := 540000, dts := 540000, keyframe := true, data := [0x65], isAudio := false },
    { pts := 541920, dts := 541920, keyframe := true, data := [0xAF], isAudio := true },
    { pts := 543000, dts := 543000, keyframe := false, data := [0x41], isAudio := false },
    { pts := 1083000, dts := 1083000, keyframe := true, data := [0x65], isAudio := false }]

/-- The second segment starts at the audio packet, before any of its video. -/
theorem audio_ahead_moves_start :
    (videoCut (new ⟨0⟩ .high 6 1920 1080 3500 128 "high".toList "4.1".toList 30) audioAhead).map
        (fun c => c.2.1) = [0, 541920] ∧
      (videoCut (new ⟨0⟩ .high 6 1920 1080 3500 128 "high".toList "4.1".toList 30)
        (videoPackets audioAhead)).map (fun c => c.2.1) = [0, 543000] ∧
      ¬AudioFree (new ⟨0⟩ .high 6 1920 1080 3500 128 "high".toList "4.1".toList 30)
        audioAhead := by
  refine ⟨?_, ?_, ?_⟩ <;> decide +kernel

end StreamInfa.Transcode
