import StreamInfa.Package.Runner

/-!
What the packager sends: init segments, media segments and the two kinds of playlists
(`Sent`).

The storage channel may close at any write. Whatever it takes, a turn and a run only add to
what was sent (`extends_handleSegment`, `extends_packagerLoop`).
-/

namespace StreamInfa.Package

/-- The objects the packager sends. -/
inductive Sent (env : PackagerEnv) : StorageWrite → Prop
  | init (segment : EncodedSegment) : Sent env (initWriteOf env segment)
  | master (infos : List RenditionInfo) : Sent env (masterWrite env infos)
  | media (segment : EncodedSegment) :
      Sent env (segmentWrite env segment
        (encoded (generateMediaSegment (mediaSegmentParams segment))))
  | playlist (r : RenditionId) (playlist : Text) : Sent env (playlistWrite env r playlist)

/-- The packager has sent more. -/
def Extends (env : PackagerEnv) (p p' : Packager) : Prop :=
  ∃ new, p'.writes = p.writes ++ new ∧ ∀ w ∈ new, Sent env w

/-- The packager after a turn, whether or not the loop goes on. -/
def reached : Except Packager Packager → Packager
  | .ok p => p
  | .error p => p

section Extends

variable {env : PackagerEnv} {p p' p'' : Packager}

theorem Extends.of_writes (h : p'.writes = p.writes) : Extends env p p' :=
  ⟨[], by rw [h, List.append_nil], fun _ hw => absurd hw List.not_mem_nil⟩

theorem Extends.trans (h : Extends env p p') (h' : Extends env p' p'') : Extends env p p'' := by
  obtain ⟨new, hnew, hsent⟩ := h
  obtain ⟨new', hnew', hsent'⟩ := h'
  refine ⟨new ++ new', by rw [hnew', hnew, List.append_assoc], fun w hw => ?_⟩
  exact (List.mem_append.mp hw).elim (hsent w) (hsent' w)

theorem extends_send {w : StorageWrite} (hw : Sent env w) (h : p.send w = some p') :
    Extends env p p' := by
  have hwrites : p'.writes = p.writes ++ [w] := by
    unfold Packager.send at h
    split at h
    · exact Option.some.inj h ▸ rfl
    · cases h
    · exact Option.some.inj h ▸ rfl
  refine ⟨[w], hwrites, fun w' hw' => ?_⟩
  rw [List.mem_singleton.mp hw']
  exact hw

theorem extends_writeMasterPlaylist (env : PackagerEnv) (p : Packager) :
    Extends env p ((writeMasterPlaylist env p).getD p) := by
  unfold writeMasterPlaylist
  cases hsend : p.send (masterWrite env p.renditionInfos) with
  | none => exact .of_writes rfl
  | some p' => exact extends_send (.master _) hsend

theorem extends_writeInitSegment (env : PackagerEnv) (p : Packager) (segment : EncodedSegment) :
    Extends env p (reached (writeInitSegment env p segment)) := by
  unfold writeInitSegment
  rw [generateInitSegment_eq]
  dsimp only
  split
  · exact .of_writes rfl
  · rename_i p₁ hsend
    have hinit : Extends env p p₁ := extends_send (.init segment) hsend
    exact hinit.trans (.of_writes rfl)

theorem extends_registerRendition (segment : EncodedSegment) :
    Extends env p (registerRendition env p segment) := by
  unfold registerRendition
  dsimp only
  split
  · have hmaster := extends_writeMasterPlaylist env
      { p with renditionInfos := p.renditionInfos ++ [renditionInfo segment] }
    exact hmaster
  · exact .of_writes rfl

theorem extends_writeMediaSegment (segment : EncodedSegment) (now : DateTime) :
    Extends env p (reached (writeMediaSegment env p segment now)) := by
  unfold writeMediaSegment
  rw [generateMediaSegment_eq]
  dsimp only
  split
  · exact .of_writes rfl
  · rename_i p₁ hsend
    have hsegment : Extends env p p₁ := extends_send (.media segment) hsend
    split
    · exact hsegment
    · rename_i p₂ hsend₂
      have hplaylist : Extends env _ p₂ := extends_send (.playlist _ _) hsend₂
      exact hsegment.trans hplaylist

/-- A turn only adds to what was sent. -/
theorem extends_handleSegment (env : PackagerEnv) (p : Packager) (segment : EncodedSegment)
    (now : DateTime) : Extends env p (reached (handleSegment env p segment now)) := by
  unfold handleSegment
  dsimp only
  split
  · exact extends_writeMediaSegment segment now
  · have hinit := extends_writeInitSegment env
      { p with indexes := p.indexes.insert segment.rendition (indexFor env p segment.rendition) }
      segment
    cases hopened : writeInitSegment env
      { p with indexes := p.indexes.insert segment.rendition (indexFor env p segment.rendition) }
      segment with
    | error p₁ =>
      rw [hopened] at hinit
      exact hinit
    | ok p₁ =>
      rw [hopened] at hinit
      have hregistered : Extends env p₁ (registerRendition env p₁ segment) :=
        extends_registerRendition segment
      exact (hinit.trans hregistered).trans (extends_writeMediaSegment segment now)

/-- What extends to the end of a turn extends to the end of the loop. -/
theorem Extends.loop {x : EncodedSegment × DateTime} {input : List (EncodedSegment × DateTime)}
    (hturn : Extends env p' (reached (handleSegment env p x.1 x.2)))
    (hrest : ∀ p₁, Extends env p₁ (packagerLoop env p₁ input)) :
    Extends env p' (packagerLoop env p (x :: input)) := by
  rw [packagerLoop]
  cases hresult : handleSegment env p x.1 x.2 with
  | ok p₁ =>
    rw [hresult] at hturn
    exact hturn.trans (hrest p₁)
  | error p₁ =>
    rw [hresult] at hturn
    exact hturn

theorem extends_packagerLoop (env : PackagerEnv) (input : List (EncodedSegment × DateTime))
    (p : Packager) : Extends env p (packagerLoop env p input) := by
  induction input generalizing p with
  | nil => exact .of_writes rfl
  | cons x input ih => exact Extends.loop (extends_handleSegment env p x.1 x.2) ih

theorem extends_runPackager (env : PackagerEnv) (room : Option ℕ)
    (input : List (EncodedSegment × DateTime)) :
    Extends env (packagerLoop env (.start room) input) (runPackager env room input) := by
  unfold runPackager
  dsimp only
  split
  · exact .of_writes rfl
  · exact extends_writeMasterPlaylist env _

/-- Everything a run writes. -/
theorem sent_of_mem {env : PackagerEnv} {room : Option ℕ}
    {input : List (EncodedSegment × DateTime)} {w : StorageWrite}
    (hw : w ∈ (runPackager env room input).writes) : Sent env w := by
  obtain ⟨new, hnew, hsent⟩ :=
    (extends_packagerLoop env input (.start room)).trans (extends_runPackager env room input)
  rw [hnew] at hw
  exact hsent w hw

end Extends

end StreamInfa.Package
