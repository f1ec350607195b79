import Vlb.Net.Http

/-!
# What is read of a response

How far the client reads, and where it cuts the head, from the bytes that the peer sends and the
reads that bring them.

* `Peer.Reads`: how many bytes are read before the cap on the reading stops it.
* `Peer.Cuts`: the blank line that the client takes for the end of the head.
* `readToCap_iff`, `headEnd_iff`: the client reads so far, and cuts there.
-/

namespace Vlb.Http

/-- What the first `k` reads bring. -/
def Peer.brought (p : Peer) (k : ℕ) : List UInt8 := (p.segments.take k).flatMap Segment.bytes

/-- The peer sends `n` bytes, and no read before the one that brings the last of them reaches the
`cap`. -/
def Peer.Reads (p : Peer) (cap n : ℕ) : Prop :=
  n ≤ p.sent.length ∧ ∀ k, cap ≤ (p.brought k).length → n ≤ (p.brought k).length

/-- The stream ends, or the cap is reached before it fails. -/
def Peer.Ends (p : Peer) (cap : ℕ) : Prop := p.fails = true → cap ≤ p.sent.length

/-- `sep` ends at `stop` in what is read of the first `window` bytes. -/
def Peer.Shows (p : Peer) (cap window : ℕ) (sep : List UInt8) (stop : ℕ) : Prop :=
  p.Reads cap stop ∧ stop ≤ window ∧ sep <:+ p.sent.take stop

/-- The first such place. -/
def Peer.ShowsFirst (p : Peer) (cap window : ℕ) (sep : List UInt8) (stop : ℕ) : Prop :=
  p.Shows cap window sep stop ∧ ∀ j < stop, ¬ p.Shows cap window sep j

/-- The head is cut at the first empty line between carriage returns, or else between line feeds,
if there is one in 64 KiB. -/
def Peer.Cuts (p : Peer) (cap stop : ℕ) : Prop :=
  p.ShowsFirst cap (64 * 1024 + 4) (crlf ++ crlf) stop ∨
    (∀ j, ¬ p.Shows cap (64 * 1024 + 4) (crlf ++ crlf) j) ∧
      p.ShowsFirst cap (64 * 1024 + 2) [lf, lf] stop

variable {p : Peer} {cap n stop window : ℕ} {raw sep : List UInt8}

/-! ## The cap on the reading -/

theorem Peer.Reads.mono {m : ℕ} (h : p.Reads cap n) (hle : m ≤ n) : p.Reads cap m :=
  ⟨hle.trans h.1, fun k hk => hle.trans (h.2 k hk)⟩

theorem Peer.reads_of_le (hle : n ≤ cap) : p.Reads cap n ↔ n ≤ p.sent.length :=
  ⟨And.left, fun hn => ⟨hn, fun _ hk => hle.trans hk⟩⟩

theorem Peer.reads_length (h : ¬ p.Reads cap p.sent.length) : p.Reads cap cap := by
  have hover : ∃ k, cap ≤ (p.brought k).length := by
    by_contra hno
    push Not at hno
    exact h ⟨le_rfl, fun k hk => absurd (hno k) (Nat.not_lt.mpr hk)⟩
  obtain ⟨k, hk⟩ := hover
  have hbrought : (p.brought k).length ≤ p.sent.length := by
    have hpre : p.brought k <+: p.sent := by
      conv_rhs => rw [Peer.sent, ← List.take_append_drop k p.segments, List.flatMap_append]
      exact List.prefix_append _ _
    exact hpre.length_le
  exact (Peer.reads_of_le le_rfl).mpr (hk.trans hbrought)

theorem Peer.ShowsFirst.unique {stop' : ℕ} (h : p.ShowsFirst cap window sep stop)
    (h' : p.ShowsFirst cap window sep stop') : stop = stop' := by
  rcases Nat.lt_trichotomy stop stop' with hlt | heq | hgt
  · exact absurd h.1 (h'.2 stop hlt)
  · exact heq
  · exact absurd h'.1 (h.2 stop' hgt)

theorem Peer.Cuts.unique {stop' : ℕ} (h : p.Cuts cap stop) (h' : p.Cuts cap stop') :
    stop = stop' := by
  rcases h with h | ⟨hnone, h⟩ <;> rcases h' with h' | ⟨hnone', h'⟩
  · exact h.unique h'
  · exact absurd h.1 (hnone' stop)
  · exact absurd h'.1 (hnone stop')
  · exact h.unique h'

theorem readLoop_prefix {fails : Bool} {segs : List Segment} {buf : List UInt8}
    (h : readLoop cap fails segs buf = .ok raw) : raw <+: buf ++ segs.flatMap Segment.bytes := by
  induction segs generalizing buf with
  | nil =>
    simp only [readLoop] at h
    split at h <;> cases h
    simp
  | cons seg segs ih =>
    simp only [readLoop] at h
    split at h
    · cases h
      exact ⟨segs.flatMap Segment.bytes, by simp⟩
    · simpa using ih h

theorem readLoop_length {fails : Bool} {segs : List Segment} {buf : List UInt8}
    (hbuf : buf.length < cap) (h : readLoop cap fails segs buf = .ok raw) :
    n ≤ raw.length ↔ n ≤ (buf ++ segs.flatMap Segment.bytes).length ∧
      ∀ k, cap ≤ (buf ++ (segs.take k).flatMap Segment.bytes).length →
        n ≤ (buf ++ (segs.take k).flatMap Segment.bytes).length := by
  induction segs generalizing buf with
  | nil =>
    simp only [readLoop] at h
    split at h <;> cases h
    simp only [List.flatMap_nil, List.append_nil, List.take_nil, iff_self_and]
    exact fun _ _ hcap => absurd hbuf (Nat.not_lt.mpr hcap)
  | cons seg segs ih =>
    have hfirst (k : ℕ) : buf ++ ((seg :: segs).take (k + 1)).flatMap Segment.bytes =
        (buf ++ seg.bytes) ++ (segs.take k).flatMap Segment.bytes := by
      rw [List.take_succ_cons, List.flatMap_cons, List.append_assoc]
    have hall : buf ++ (seg :: segs).flatMap Segment.bytes =
        (buf ++ seg.bytes) ++ segs.flatMap Segment.bytes := by
      rw [List.flatMap_cons, List.append_assoc]
    -- nothing is read yet where no read is made
    have hreads : (∀ k, cap ≤ (buf ++ ((seg :: segs).take k).flatMap Segment.bytes).length →
          n ≤ (buf ++ ((seg :: segs).take k).flatMap Segment.bytes).length) ↔
        ∀ k, cap ≤ (buf ++ seg.bytes ++ (segs.take k).flatMap Segment.bytes).length →
          n ≤ (buf ++ seg.bytes ++ (segs.take k).flatMap Segment.bytes).length := by
      constructor
      · intro hk k
        rw [← hfirst]
        exact hk (k + 1)
      · intro hk k
        cases k with
        | zero =>
          intro hcap
          rw [List.take_zero, List.flatMap_nil, List.append_nil] at hcap
          omega
        | succ k =>
          rw [hfirst]
          exact hk k
    rw [hreads, hall]
    simp only [readLoop] at h
    split at h
    · rename_i hcap
      cases h
      constructor
      · intro hn
        exact ⟨hn.trans (List.prefix_append _ _).length_le, fun k _ =>
          hn.trans (List.prefix_append _ _).length_le⟩
      · rintro ⟨-, hk⟩
        have hzero := hk 0
        rw [List.take_zero, List.flatMap_nil, List.append_nil] at hzero
        exact hzero hcap
    · rename_i hcap
      exact ih (by omega) h

theorem exists_readLoop {fails : Bool} {segs : List Segment} {buf : List UInt8}
    (hbuf : buf.length < cap) : (∃ raw, readLoop cap fails segs buf = .ok raw) ↔
      (fails = true → cap ≤ (buf ++ segs.flatMap Segment.bytes).length) := by
  induction segs generalizing buf with
  | nil =>
    cases fails with
    | false => simp [readLoop]
    | true => simpa [readLoop] using hbuf
  | cons seg segs ih =>
    rw [List.flatMap_cons, ← List.append_assoc]
    by_cases hcap : cap ≤ (buf ++ seg.bytes).length
    · simp only [readLoop, if_pos hcap, Except.ok.injEq, exists_eq', true_iff]
      exact fun _ => hcap.trans (List.prefix_append _ _).length_le
    · simp only [readLoop, if_neg hcap]
      exact ih (Nat.lt_of_not_le hcap)

theorem ceiling_pos (maxBody : UInt64) : 0 < ceiling maxBody := by
  unfold ceiling
  omega

/-- What is parsed is the beginning of what the peer sends, -/
theorem readToCap_prefix {maxBody : UInt64} (h : readToCap p maxBody = .ok raw) :
    raw <+: p.sent := by
  unfold readToCap at h
  split at h
  · cases h
  · rename_i hloop
    split at h <;> cases h
    simpa [Peer.sent] using readLoop_prefix hloop

/-- **as far as the cap lets it be read.** -/
theorem reads_iff {maxBody : UInt64} (h : readToCap p maxBody = .ok raw) :
    p.Reads (ceiling maxBody) n ↔ n ≤ raw.length := by
  unfold readToCap at h
  split at h
  · cases h
  · rename_i hloop
    split at h <;> cases h
    have hempty : ([] : List UInt8).length < ceiling maxBody := ceiling_pos maxBody
    rw [readLoop_length hempty hloop]
    rfl

theorem exists_readToCap {maxBody : UInt64} (hne : p.sent ≠ []) :
    (∃ raw, readToCap p maxBody = .ok raw) ↔ p.Ends (ceiling maxBody) := by
  have hempty : ([] : List UInt8).length < ceiling maxBody := ceiling_pos maxBody
  have hloop : (∃ raw, readLoop (ceiling maxBody) p.fails p.segments [] = .ok raw) ↔ _ :=
    exists_readLoop hempty
  unfold Peer.Ends Peer.sent
  rw [List.nil_append] at hloop
  rw [← hloop]
  constructor
  · rintro ⟨raw, h⟩
    unfold readToCap at h
    split at h
    · cases h
    · rename_i hraw
      exact ⟨_, hraw⟩
  · rintro ⟨raw, h⟩
    have hread : raw ≠ [] := by
      rintro rfl
      have hone : 1 ≤ p.sent.length := List.length_pos_iff.mpr hne
      have hall : (1 ≤ ([] : List UInt8).length) :=
        (readLoop_length hempty h).mpr ⟨hone, fun _ hk => (ceiling_pos maxBody).trans_le hk⟩
      exact absurd hall (by decide)
    exact ⟨raw, by simp [readToCap, h, hread]⟩

/-! ## The cut -/

theorem prefix_drop_take {bytes : List UInt8} {i m : ℕ} (hne : sep ≠ []) :
    sep <+: (bytes.take m).drop i ↔
      i + sep.length ≤ min m bytes.length ∧ sep <:+ bytes.take (i + sep.length) := by
  have hpos := List.length_pos_iff.mpr hne
  constructor
  · intro h
    have hlen := h.length_le
    rw [List.length_drop, List.length_take] at hlen
    rw [List.drop_take] at h
    have hpre := h.trans (List.take_prefix _ _)
    refine ⟨by omega, ?_⟩
    rw [List.take_add, ← List.prefix_iff_eq_take.mp hpre]
    exact List.suffix_append _ _
  · rintro ⟨hle, front, hfront⟩
    have hlen := congrArg List.length hfront
    rw [List.length_append, List.length_take] at hlen
    obtain rfl : front.length = i := by omega
    rw [List.drop_take, List.prefix_take_iff]
    refine ⟨?_, by omega⟩
    rw [List.take_add] at hfront
    have hsep := (List.append_inj hfront (by rw [List.length_take]; omega)).2
    exact hsep ▸ List.take_prefix _ _

section Cut

variable (hpre : raw <+: p.sent) (hreads : ∀ n, p.Reads cap n ↔ n ≤ raw.length)
include hpre hreads

theorem shows_iff (hne : sep ≠ []) {i : ℕ} :
    p.Shows cap window sep (i + sep.length) ↔ sep <+: (raw.take window).drop i := by
  have hraw : raw.take window = p.sent.take (min window raw.length) := by
    rw [← List.take_take, ← List.prefix_iff_eq_take.mp hpre]
  have hle := hpre.length_le
  rw [hraw, prefix_drop_take hne, Peer.Shows, hreads]
  constructor
  · rintro ⟨hread, hwindow, hsep⟩
    exact ⟨by omega, hsep⟩
  · rintro ⟨hall, hsep⟩
    exact ⟨by omega, by omega, hsep⟩

omit hpre hreads in
theorem Peer.Shows.exists_start (h : p.Shows cap window sep stop) : ∃ i, stop = i + sep.length := by
  have hlen := h.2.2.length_le
  rw [List.length_take] at hlen
  exact ⟨stop - sep.length, by omega⟩

theorem findSubslice_iff (hne : sep ≠ []) :
    (findSubslice (raw.take window) sep).map (· + sep.length) = some stop ↔
      p.ShowsFirst cap window sep stop := by
  rw [Option.map_eq_some_iff]
  constructor
  · rintro ⟨i, hfound, rfl⟩
    obtain ⟨hsep, hfirst⟩ := (findSubslice_eq_some hne).mp hfound
    refine ⟨(shows_iff hpre hreads hne).mpr hsep, fun j hj hshows => ?_⟩
    obtain ⟨i', rfl⟩ := hshows.exists_start
    exact hfirst i' (by omega) ((shows_iff hpre hreads hne).mp hshows)
  · rintro ⟨hshows, hfirst⟩
    obtain ⟨i, rfl⟩ := hshows.exists_start
    refine ⟨i, (findSubslice_eq_some hne).mpr ⟨?_, fun j hj hsep => ?_⟩, rfl⟩
    · exact (shows_iff hpre hreads hne).mp hshows
    · exact hfirst (j + sep.length) (by omega) ((shows_iff hpre hreads hne).mpr hsep)

theorem findSubslice_none_iff (hne : sep ≠ []) :
    findSubslice (raw.take window) sep = none ↔ ∀ j, ¬ p.Shows cap window sep j := by
  rw [findSubslice_eq_none hne]
  constructor
  · intro hnot j hshows
    obtain ⟨i, rfl⟩ := hshows.exists_start
    exact hnot (((shows_iff hpre hreads hne).mp hshows).isInfix.trans
      (List.drop_suffix _ _).isInfix)
  · rintro hnot ⟨front, back, hinfix⟩
    refine hnot (front.length + sep.length) ((shows_iff hpre hreads hne).mpr ⟨back, ?_⟩)
    rw [← hinfix, List.append_assoc, List.drop_left]

/-- **The client cuts the head there.** -/
theorem headEnd_iff : headEnd raw = some stop ↔ p.Cuts cap stop := by
  have hcrlf : crlf ++ crlf ≠ [] := by decide
  have hlf : [lf, lf] ≠ [] := by decide
  unfold headEnd Peer.Cuts
  rw [Option.or_eq_some_iff, Option.map_eq_none_iff, findSubslice_none_iff hpre hreads hcrlf]
  exact or_congr (findSubslice_iff hpre hreads hcrlf)
    (and_congr_right fun _ => findSubslice_iff hpre hreads hlf)

end Cut

end Vlb.Http
