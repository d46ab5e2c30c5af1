import Laplace.Unicode.Utf8Decoders

/-!
# What `laplace_uax29_segment` emits (uax29.cpp:535-640)

Whatever the kind, the spans of a well-formed text follow each other from its beginning to its end, each
between two code point boundaries. The three `BoundaryFn`s enter by `FirstBreak` only.
-/

namespace Laplace.Uax29

open Unicode


/-! ## Offsets -/

section Offsets

variable {rounds offset : ℕ} {bytes : List UInt8} {text : DecodedText}

/-- The bytes of the code points. -/
def codes (codepoints : List UInt32) : List UInt8 :=
  codepoints.flatMap fun codepoint => Utf8.encode codepoint.toNat

theorem codes_cons (codepoint : UInt32) (codepoints : List UInt32) :
    codes (codepoint :: codepoints) = Utf8.encode codepoint.toNat ++ codes codepoints := rfl

theorem codes_take (codepoints : List UInt32) (count : ℕ) :
    codes codepoints = codes (codepoints.take count) ++ codes (codepoints.drop count) := by
  rw [codes, codes, codes, ← List.flatMap_append, List.take_append_drop]

theorem codes_pos {codepoints : List UInt32} (h : codepoints ≠ []) : 0 < (codes codepoints).length := by
  obtain ⟨codepoint, codepoints, rfl⟩ := List.exists_cons_of_ne_nil h
  rw [codes_cons, List.length_append]
  exact Nat.add_pos_left (List.length_pos_iff.2 (Utf8.encode_ne_nil _)) _

theorem codes_take_mono (codepoints : List UInt32) {start stop : ℕ} (h : start < stop)
    (hstop : stop ≤ codepoints.length) :
    (codes (codepoints.take start)).length < (codes (codepoints.take stop)).length := by
  have hsplit : codepoints.take stop = codepoints.take start ++ (codepoints.take stop).drop start := by
    conv_lhs => rw [← List.take_append_drop start (codepoints.take stop)]
    rw [List.take_take, Nat.min_eq_left (Nat.le_of_lt h)]
  have hne : (codepoints.take stop).drop start ≠ [] := by
    rw [← List.length_pos_iff, List.length_drop, List.length_take]
    omega
  have hcodes : codes (codepoints.take stop) =
      codes (codepoints.take start) ++ codes ((codepoints.take stop).drop start) := by
    conv_lhs => rw [hsplit]
    exact List.flatMap_append
  have hpos := codes_pos hne
  rw [hcodes, List.length_append]
  omega

theorem decodeFrom_cons {first : UInt8} {rest : List UInt8}
    (h : decodeFrom (rounds + 1) offset (first :: rest) = some text) : ∃ codepoint rest' text',
      first :: rest = Utf8.encode codepoint.toNat ++ rest' ∧
      decodeFrom rounds (offset + (Utf8.encode codepoint.toNat).length) rest' = some text' ∧
      text = ⟨codepoint :: text'.codepoints, offset :: text'.byteOffsets⟩ := by
  rw [decodeFrom] at h
  cases hlead : leadByte first with
  | none =>
    rw [hlead] at h
    cases h
  | some pair =>
    obtain ⟨payload, width⟩ := pair
    simp only [hlead, Option.bind_eq_bind, Option.bind_some] at h
    split at h
    · cases h
    rename_i hwidth
    obtain ⟨codepoint, hcodepoint, h⟩ := Option.bind_eq_some_iff.1 h
    split at h
    · cases h
    rename_i hrefused
    obtain ⟨text', htext', h⟩ := Option.bind_eq_some_iff.1 h
    rw [Option.some.injEq] at h
    have hread : readCodepoint first rest = some (codepoint, rest.drop (width - 1)) := by
      rw [readCodepoint, hlead]
      simp only [Option.bind_eq_bind, Option.bind_some]
      rw [if_neg hwidth, hcodepoint, Option.bind_some, if_neg hrefused]
    rw [readCodepoint_eq_readValue] at hread
    obtain ⟨-, hbytes⟩ := (readValue_reads _ _ _ _).1 hread
    have hpos : 0 < width := by
      rw [uaxLeadByte_eq] at hlead
      obtain ⟨pair, -, hpair⟩ := Option.map_eq_some_iff.1 hlead
      rw [Prod.mk.injEq] at hpair
      omega
    have hlength : (Utf8.encode codepoint.toNat).length = width := by
      have := congrArg List.length hbytes
      rw [List.length_cons, List.length_append, List.length_drop] at this
      omega
    exact ⟨codepoint, rest.drop (width - 1), text', hbytes, hlength ▸ htext', h.symm⟩

/-- **The offsets.** The code points spell the string, and each offset is the length of the code before
it. -/
theorem decodeFrom_offsets : ∀ {rounds offset : ℕ} {bytes : List UInt8} {text : DecodedText},
    decodeFrom rounds offset bytes = some text →
      bytes = codes text.codepoints ∧ ∀ index ≤ text.codepoints.length,
        text.byteOffsets.getD index 0 = offset + (codes (text.codepoints.take index)).length
  | rounds, offset, [], text, h => by
    have hnil : decodeFrom rounds offset [] = some ⟨[], [offset]⟩ := by cases rounds <;> rfl
    rw [hnil, Option.some.injEq] at h
    subst h
    refine ⟨rfl, fun index hindex => ?_⟩
    rw [Nat.le_zero.1 hindex]
    rfl
  | 0, _, _ :: _, _, h => by cases h
  | rounds + 1, offset, first :: rest, text, h => by
    obtain ⟨codepoint, rest', text', hbytes, htext', rfl⟩ := decodeFrom_cons h
    obtain ⟨hcodes, hoffsets⟩ := decodeFrom_offsets htext'
    refine ⟨by rw [hbytes, hcodes, codes_cons], fun index hindex => ?_⟩
    cases index with
    | zero => rfl
    | succ index =>
      rw [List.getD_cons_succ, hoffsets index (Nat.le_of_succ_le_succ hindex), List.take_succ_cons,
        codes_cons, List.length_append, Nat.add_assoc]

end Offsets

/-! ## Spans -/

/-- The first `byte` bytes are the first `codepoint` code points. -/
def IsBoundary (codepoints : List UInt32) (utf8 : List UInt8) (byte codepoint : ℕ) : Prop :=
  byte ≤ utf8.length ∧ codepoint ≤ codepoints.length ∧
    Spells (codepoints.take codepoint) (utf8.take byte)

/-- Spans of a kind from one position to the end of the text, none of them empty, each beginning where
the one before it ends, and at code point boundaries. -/
inductive Tiles (codepoints : List UInt32) (utf8 : List UInt8) (kind : BoundaryKind) :
    ℕ → ℕ → List Span → Prop
  | nil : Tiles codepoints utf8 kind utf8.length codepoints.length []
  | cons {span : Span} {spans : List Span} (hkind : span.kind = kind)
    (hbytes : span.byteStart < span.byteEnd) (hcodepoints : span.codepointStart < span.codepointEnd)
    (hstart : IsBoundary codepoints utf8 span.byteStart span.codepointStart)
    (hend : IsBoundary codepoints utf8 span.byteEnd span.codepointEnd)
    (hrest : Tiles codepoints utf8 kind span.byteEnd span.codepointEnd spans) :
    Tiles codepoints utf8 kind span.byteStart span.codepointStart (span :: spans)

section Spans

variable {text : DecodedText} {utf8 : List UInt8} {joined : ℕ → ℕ → Prop} {next : ℕ → ℕ}

theorem isBoundary_offset (hspells : Spells text.codepoints utf8) (h : decodeUtf8 utf8 = some text)
    {index : ℕ} (hindex : index ≤ text.codepoints.length) :
    IsBoundary text.codepoints utf8 (text.byteOffsets.getD index 0) index := by
  obtain ⟨hcodes, hoffsets⟩ := decodeFrom_offsets h
  have hscalar := (spells_iff.1 hspells).1
  rw [hoffsets index hindex, Nat.zero_add]
  have hsplit := hcodes.trans (codes_take text.codepoints index)
  refine ⟨?_, hindex, spells_iff.2 ⟨fun codepoint hmem =>
    hscalar codepoint (List.mem_of_mem_take hmem), ?_⟩⟩
  · rw [hsplit, List.length_append]
    omega
  · rw [hsplit, List.take_left]
    rfl

theorem tiles_spansFrom (kind : BoundaryKind) (hspells : Spells text.codepoints utf8)
    (h : decodeUtf8 utf8 = some text) (hf : FirstBreak text.codepoints.length joined next) : ∀ rounds start,
    start ≤ text.codepoints.length → text.codepoints.length ≤ start + rounds →
      Tiles text.codepoints utf8 kind (text.byteOffsets.getD start 0) start
        (spansFrom text kind start (ends next text.codepoints.length rounds start)) := by
  obtain ⟨hcodes, hoffsets⟩ := decodeFrom_offsets h
  have hlast : text.byteOffsets.getD text.codepoints.length 0 = utf8.length := by
    rw [hoffsets _ (Nat.le_refl _), List.take_length, ← hcodes, Nat.zero_add]
  have hnil : Tiles text.codepoints utf8 kind (text.byteOffsets.getD text.codepoints.length 0)
      text.codepoints.length [] := by
    rw [hlast]
    exact .nil
  intro rounds
  induction rounds with
  | zero =>
    intro start hle hge
    rw [show start = text.codepoints.length by omega]
    exact hnil
  | succ rounds ih =>
    intro start hle hge
    rcases Nat.lt_or_eq_of_le hle with hlt | rfl
    · have hnext := hf.lt start hlt
      have hstop := hf.le start hlt
      have hmono := codes_take_mono text.codepoints hnext hstop
      rw [ends_succ hlt]
      refine @Tiles.cons _ _ _ (spanOf text kind start (next start)) _ rfl ?_ hnext
        (isBoundary_offset hspells h hle) (isBoundary_offset hspells h hstop)
        (ih (next start) hstop (by omega))
      change text.byteOffsets.getD start 0 < text.byteOffsets.getD (next start) 0
      rw [hoffsets start hle, hoffsets _ hstop]
      omega
    · rw [show ends next text.codepoints.length (rounds + 1) text.codepoints.length = [] from
        if_neg (Nat.lt_irrefl _)]
      exact hnil

end Spans

/-- **Segmentation is a partition.** A well-formed text is cut, whatever the kind, into spans that tile
it, and `emit` gets one after the other; it gets none of a text that is not well-formed. -/
theorem segment_partition {σ : Type} (t : Tables) (utf8 : List UInt8) (kind : BoundaryKind)
    (emit : σ → Span → σ × Bool) (state : σ) :
    (Utf8.WellFormed utf8 → ∃ codepoints spans, Spells codepoints utf8 ∧
      Tiles codepoints utf8 kind 0 0 spans ∧
      (segment t utf8 kind collect []).map (fun r => (r.1, r.2.1)) = some (.ok, spans) ∧
      (segment t utf8 kind emit state).map (fun r => (r.1, r.2.1)) =
        some ((feed emit spans state 0).1, (feed emit spans state 0).2.1)) ∧ (¬ Utf8.WellFormed utf8 →
      segment t utf8 kind emit state = some (.invalidUtf8, state, { inputBytes := utf8.length })) := by
  constructor
  · intro hwell
    rcases List.eq_nil_or_concat utf8 with rfl | ⟨_, _, hconcat⟩
    · exact ⟨[], [], spells_iff.2 ⟨nofun, rfl⟩, .nil, rfl, rfl⟩
    obtain ⟨codepoints, hspells⟩ := wellFormed_iff_spells.1 hwell
    obtain ⟨text, htext, rfl⟩ := Option.map_eq_some_iff.1 (uax_decodeUtf8_iff.2 hspells)
    obtain ⟨joined, hf⟩ := @boundaryFn_firstBreak t kind text.codepoints
    have hlength : utf8.length ≠ 0 := by
      rw [hconcat, List.length_concat]
      exact Nat.succ_ne_zero _
    have hfirst : text.byteOffsets.getD 0 0 = 0 := (decodeFrom_offsets htext).2 0 (Nat.zero_le _)
    have htiles := tiles_spansFrom kind hspells htext hf text.codepoints.length 0
      (Nat.zero_le _) (by omega)
    rw [hfirst] at htiles
    have hrun : ∀ {σ : Type} (emit : σ → Span → σ × Bool) (state : σ),
        (segment t utf8 kind emit state).map (fun r => (r.1, r.2.1)) =
          some ((feed emit (spansFrom text kind 0 (ends (boundaryFn t kind text.codepoints)
            text.codepoints.length text.codepoints.length 0)) state 0).1,
            (feed emit (spansFrom text kind 0 (ends (boundaryFn t kind text.codepoints)
            text.codepoints.length text.codepoints.length 0)) state 0).2.1) := by
      intro σ emit state
      rw [segment, if_neg hlength, htext]
      simp only [emitSegmentation, emitFrom_eq emit hf text.codepoints.length 0 state 0 (by omega)]
      rfl
    refine ⟨text.codepoints, _, hspells, htiles, ?_, hrun emit state⟩
    rw [hrun, feed_collect]
    rfl
  · intro hwell
    have hlength : utf8.length ≠ 0 := fun hnil => hwell (List.length_eq_zero_iff.1 hnil ▸ .nil)
    have hdecode : decodeUtf8 utf8 = none := by
      cases h : decodeUtf8 utf8 with
      | none => rfl
      | some text =>
        exact absurd (wellFormed_iff_spells.2
          ⟨text.codepoints, uax_decodeUtf8_iff.1 (by rw [h]; rfl)⟩) hwell
    rw [segment, if_neg hlength, hdecode]

end Laplace.Uax29
