import Mathlib.Tactic

/-!
# Positions and moves of a chess line (chess_line.cpp)

A line is a trace of positions and moves that a rules provider has played; the planner checks that
each move leads from its position to the next one. Squares are numbered from a1 along the ranks.
-/

namespace Laplace.Chess

/-! ## The data -/

def white : ℕ := 1
def black : ℕ := 2
def pawn : ℕ := 1
def knight : ℕ := 2
def bishop : ℕ := 3
def rook : ℕ := 4
def queen : ℕ := 5
def king : ℕ := 6
def noSquare : ℕ := 64
def ordinary : ℕ := 0
def castleKing : ℕ := 1
def castleQueen : ℕ := 2
def enPassant : ℕ := 3

/-- `laplace_chess_position` -/
structure Position where
  pieces : ℕ → ℕ
  sideToMove : ℕ
  castlingRights : ℕ
  legalEnPassantSquare : ℕ
  reserved : Fin 5 → ℕ

/-- `laplace_chess_move` -/
structure Move where
  fromSquare : ℕ
  toSquare : ℕ
  promotionKind : ℕ
  form : ℕ
deriving DecidableEq

/-- `Side` -/
def side (piece : ℕ) : ℕ := if piece = 0 then 0 else if piece < 8 then white else black

/-- `Kind` -/
def kind (piece : ℕ) : ℕ := piece % 8

/-- `Piece` -/
def piece (side kind : ℕ) : ℕ := kind + if side = black then 8 else 0

/-- The first square of a side's home rank. -/
def base (side : ℕ) : ℕ := if side = white then 0 else 56

/-- `((castling_rights >> shift) & 3) & (1 << wing)` is not zero. -/
def hasRight (rights side wing : ℕ) : Bool :=
  rights >>> (if side = white then 0 else 2) &&& 3 &&& 1 <<< wing != 0

/-- The home of the rook of a wing: the king's is wing 0. -/
def corner (side wing : ℕ) : ℕ := base side + if wing = 0 then 7 else 0

/-! ## Validation -/

/-- A square of a position that `ValidPosition` does not refuse. -/
def ValidSquare (square piece : ℕ) : Prop :=
  piece = 0 ∨ piece ≠ 7 ∧ piece ≠ 8 ∧ piece ≤ 14 ∧ (kind piece = pawn → 8 ≤ square ∧ square < 56)

instance decidableValidSquare (square piece : ℕ) : Decidable (ValidSquare square piece) :=
  inferInstanceAs (Decidable (_ ∨ _))

/-- The number of kings of a side. -/
def kings (p : Position) (s : ℕ) : ℕ :=
  (List.range 64).countP fun square => kind (p.pieces square) = king ∧ side (p.pieces square) = s

/-- A right is only there with its king and its rook. -/
def ValidRights (p : Position) (s : ℕ) : Prop :=
  (hasRight p.castlingRights s 0 || hasRight p.castlingRights s 1 →
    p.pieces (base s + 4) = piece s king) ∧
  (hasRight p.castlingRights s 0 → p.pieces (corner s 0) = piece s rook) ∧
  (hasRight p.castlingRights s 1 → p.pieces (corner s 1) = piece s rook)

instance decidableValidRights (p : Position) (s : ℕ) : Decidable (ValidRights p s) :=
  inferInstanceAs (Decidable (_ ∧ _ ∧ _))

/-- The square is behind a pawn that a pawn of the side to move stands next to. -/
def ValidEnPassant (p : Position) (target : ℕ) : Prop :=
  let rank := if p.sideToMove = white then 5 else 2
  let pawnRank := if p.sideToMove = white then 4 else 3
  let file := target % 8
  let ownPawn := piece p.sideToMove pawn
  target / 8 = rank ∧ p.pieces target = 0 ∧
    p.pieces (pawnRank * 8 + file) = piece (3 - p.sideToMove) pawn ∧
    (0 < file ∧ p.pieces (pawnRank * 8 + file - 1) = ownPawn ∨
      file < 7 ∧ p.pieces (pawnRank * 8 + file + 1) = ownPawn)

instance decidableValidEnPassant (p : Position) (target : ℕ) : Decidable (ValidEnPassant p target) :=
  inferInstanceAs (Decidable (_ ∧ _ ∧ _ ∧ (_ ∨ _)))

/-- `ValidPosition` -/
def validPosition (p : Position) : Bool :=
  decide (p.sideToMove = white ∨ p.sideToMove = black) && decide (p.castlingRights ≤ 15) &&
    decide (p.legalEnPassantSquare ≤ noSquare) && decide (∀ i, p.reserved i = 0) &&
    (List.range 64).all (fun square => ValidSquare square (p.pieces square)) &&
    kings p 1 == 1 && kings p 2 == 1 && decide (ValidRights p 1) && decide (ValidRights p 2) &&
    (p.legalEnPassantSquare == noSquare || decide (ValidEnPassant p p.legalEnPassantSquare))

/-- `rights &= ~mask` -/
def clear (rights mask : ℕ) : ℕ := rights &&& (2 ^ 32 - 1 - mask)

section Transition

variable (before : Position) (move : Move)

/-- The piece that moves, and the one on the square it moves to. -/
def Move.moving : ℕ := before.pieces move.fromSquare
def Move.captured : ℕ := before.pieces move.toSquare

/-- The squares `ValidTransition` expects, where the move is not refused. -/
def expectedPieces : Option (ℕ → ℕ) :=
  let s := before.sideToMove
  let moving := move.moving before
  let expected :=
    Function.update (Function.update before.pieces move.fromSquare 0) move.toSquare moving
  if move.form = castleKing ∨ move.form = castleQueen then
    let kingSide : Bool := move.form = castleKing
    let rookFrom := base s + if kingSide then 7 else 0
    let rookTo := base s + if kingSide then 5 else 3
    if kind moving ≠ king ∨ move.promotionKind ≠ 0 ∨ move.fromSquare ≠ base s + 4 ∨
        move.toSquare ≠ (base s + if kingSide then 6 else 2) ∨
        hasRight before.castlingRights s (if kingSide then 0 else 1) = false ∨
        before.pieces rookFrom ≠ piece s rook then none
    else if (List.range' (base s + if kingSide then 5 else 1) (if kingSide then 2 else 3)).any
        (before.pieces · != 0) then none
    else some (Function.update (Function.update expected rookFrom 0) rookTo (piece s rook))
  else if move.form = enPassant then
    let sourceRank := if s = white then 4 else 3
    let targetRank := if s = white then 5 else 2
    let capturedSquare := sourceRank * 8 + move.toSquare % 8
    if kind moving ≠ pawn ∨ move.promotionKind ≠ 0 ∨
        before.legalEnPassantSquare ≠ move.toSquare ∨ move.captured before ≠ 0 ∨
        move.fromSquare / 8 ≠ sourceRank ∨ move.toSquare / 8 ≠ targetRank ∨
        ¬ (move.toSquare % 8 + 1 = move.fromSquare % 8 ∨
          move.toSquare % 8 = move.fromSquare % 8 + 1) ∨
        before.pieces capturedSquare ≠ piece (3 - s) pawn then none
    else some (Function.update expected capturedSquare 0)
  else
    let finalRank : Bool := move.toSquare / 8 = if s = white then 7 else 0
    if move.promotionKind ≠ 0 ∧ (kind moving ≠ pawn ∨ finalRank = false) ∨
        kind moving = pawn ∧ finalRank ∧ move.promotionKind = 0 then none
    else if move.promotionKind ≠ 0 then
      some (Function.update expected move.toSquare (piece s move.promotionKind))
    else some expected

/-- The rook of a corner leaves it or is captured there. -/
def losesRook (s wing : ℕ) : Prop :=
  move.fromSquare = corner s wing ∧ move.moving before = piece s rook ∨
    move.toSquare = corner s wing ∧ move.captured before = piece s rook

instance decidableLosesRook (s wing : ℕ) : Decidable (losesRook before move s wing) :=
  inferInstanceAs (Decidable (_ ∨ _))

/-- The rights `ValidTransition` expects. -/
def expectedRights : ℕ :=
  let rights := if kind (move.moving before) = king then
      clear before.castlingRights (if before.sideToMove = white then 3 else 12)
    else before.castlingRights
  [(1, 0), (1, 1), (2, 0), (2, 1)].foldl (fun rights (s, wing) =>
    if losesRook before move s wing then clear rights ((1 <<< wing) <<< (if s = 1 then 0 else 2))
    else rights) rights

/-- A pawn moves from its second rank to its fourth: a capture on the way may be possible. -/
def DoubleStep : Prop :=
  move.form = ordinary ∧ kind (move.moving before) = pawn ∧
    move.fromSquare / 8 = (if before.sideToMove = white then 1 else 6) ∧
    move.toSquare / 8 = (if before.sideToMove = white then 3 else 4) ∧
    move.fromSquare % 8 = move.toSquare % 8

instance decidableDoubleStep : Decidable (DoubleStep before move) :=
  inferInstanceAs (Decidable (_ ∧ _ ∧ _ ∧ _ ∧ _))

/-- `ValidTransition` -/
def validTransition (after : Position) : Bool :=
  if 64 ≤ move.fromSquare ∨ 64 ≤ move.toSquare ∨ move.fromSquare = move.toSquare ∨
      enPassant < move.form ∨
      move.promotionKind ≠ 0 ∧ (move.promotionKind < knight ∨ queen < move.promotionKind) ∨
      after.sideToMove ≠ 3 - before.sideToMove then false
  else if side (move.moving before) ≠ before.sideToMove ∨
      side (move.captured before) = before.sideToMove ∨ kind (move.captured before) = king then
    false
  else
    match expectedPieces before move with
    | none => false
    | some expected =>
      (List.range 64).all (fun square => expected square = after.pieces square) &&
        after.castlingRights == expectedRights before move &&
        (after.legalEnPassantSquare == noSquare || decide (DoubleStep before move ∧
          after.legalEnPassantSquare = (move.fromSquare + move.toSquare) / 2))

end Transition

/-! ## Orthodox chess -/

def file (square : ℕ) : ℤ := (square % 8 : ℕ)
def rank (square : ℕ) : ℤ := (square / 8 : ℕ)

/-- The direction a side's pawns move in. -/
def forward (s : ℕ) : ℤ := if s = white then 1 else -1

section Rules

variable (board : ℕ → ℕ) (source target : ℕ)

/-- No piece stands between two squares of a line. -/
def Clear : Prop :=
  let df := file target - file source
  let dr := rank target - rank source
  ∀ n : ℕ, n < max df.natAbs dr.natAbs → 0 < n →
    board (source + n * (df.sign + 8 * dr.sign)).toNat = 0

/-- The piece on one square could capture on the other. -/
def Attacks : Prop :=
  let df := file target - file source
  let dr := rank target - rank source
  let k := kind (board source)
  k = pawn ∧ df.natAbs = 1 ∧ dr = forward (side (board source)) ∨
    k = knight ∧ df.natAbs * dr.natAbs = 2 ∨
    k = king ∧ max df.natAbs dr.natAbs = 1 ∨
    (k = bishop ∨ k = queen) ∧ df.natAbs = dr.natAbs ∧ df ≠ 0 ∧ Clear board source target ∨
    (k = rook ∨ k = queen) ∧ (df = 0 ∧ dr ≠ 0 ∨ df ≠ 0 ∧ dr = 0) ∧ Clear board source target

/-- A piece of the side could capture on the square. -/
def Attacked (s : ℕ) : Prop :=
  ∃ source : ℕ, source < 64 ∧ side (board source) = s ∧ Attacks board source target

instance decidableClear : Decidable (Clear board source target) :=
  Nat.decidableBallLT _ _

instance decidableAttacks : Decidable (Attacks board source target) :=
  inferInstanceAs (Decidable (_ ∨ _ ∨ _ ∨ _ ∨ _))

instance decidableAttacked (s : ℕ) : Decidable (Attacked board target s) :=
  inferInstanceAs (Decidable (∃ n : ℕ, n < 64 ∧ _))

end Rules

/-- A pawn is promoted exactly where it reaches the last rank. -/
def Promotes (p : Position) (m : Move) : Prop :=
  if m.toSquare / 8 = (if p.sideToMove = white then 7 else 0) then
    m.promotionKind ∈ [knight, bishop, rook, queen]
  else m.promotionKind = 0

/-- The board after a move. -/
def standardBoard (p : Position) (m : Move) (square : ℕ) : ℕ :=
  let s := p.sideToMove
  if square = m.toSquare then
    if m.promotionKind = 0 then p.pieces m.fromSquare else piece s m.promotionKind
  else if square = m.fromSquare then 0
  else if m.form = enPassant ∧ square = m.fromSquare / 8 * 8 + m.toSquare % 8 then 0
  else if m.form = castleKing ∧ square = base s + 7 ∨ m.form = castleQueen ∧ square = base s then 0
  else if m.form = castleKing ∧ square = base s + 5 ∨ m.form = castleQueen ∧ square = base s + 3
    then piece s rook
  else p.pieces square

/-- How the pieces move, the safety of the king after the move apart. -/
inductive PseudoLegal (p : Position) (m : Move) : Prop
  | officer (not_pawn : kind (m.moving p) ≠ pawn) (form : m.form = ordinary)
      (promotion : m.promotionKind = 0) (attacks : Attacks p.pieces m.fromSquare m.toSquare)
  | capture (is_pawn : kind (m.moving p) = pawn) (form : m.form = ordinary)
      (promotion : Promotes p m) (attacks : Attacks p.pieces m.fromSquare m.toSquare)
      (captured : m.captured p ≠ 0)
  | push (is_pawn : kind (m.moving p) = pawn) (form : m.form = ordinary)
      (promotion : Promotes p m) (empty : m.captured p = 0)
      (files : file m.toSquare = file m.fromSquare)
      (ranks : rank m.toSquare = rank m.fromSquare + forward p.sideToMove)
  | doublePush (is_pawn : kind (m.moving p) = pawn) (form : m.form = ordinary)
      (promotion : m.promotionKind = 0) (empty : m.captured p = 0)
      (passed : p.pieces ((m.fromSquare + m.toSquare) / 2) = 0)
      (files : file m.toSquare = file m.fromSquare)
      (start : m.fromSquare / 8 = if p.sideToMove = white then 1 else 6)
      (ranks : rank m.toSquare = rank m.fromSquare + 2 * forward p.sideToMove)
  | passing (is_pawn : kind (m.moving p) = pawn) (form : m.form = enPassant)
      (promotion : m.promotionKind = 0) (target : p.legalEnPassantSquare = m.toSquare)
      (attacks : Attacks p.pieces m.fromSquare m.toSquare)
  | castle (wing : ℕ) (form : m.form = if wing = 0 then castleKing else castleQueen)
      (promotion : m.promotionKind = 0) (is_king : kind (m.moving p) = king)
      (right : hasRight p.castlingRights p.sideToMove (if wing = 0 then 0 else 1) = true)
      (source : m.fromSquare = base p.sideToMove + 4)
      (target : m.toSquare = base p.sideToMove + if wing = 0 then 6 else 2)
      (between : ∀ n ∈ if wing = 0 then [5, 6] else [1, 2, 3], p.pieces (base p.sideToMove + n) = 0)
      (unchecked : ¬ Attacked p.pieces m.fromSquare (3 - p.sideToMove))
      (passage : ¬ Attacked p.pieces ((m.fromSquare + m.toSquare) / 2) (3 - p.sideToMove))

/-- A legal move: the king is not left where it could be captured. -/
structure Legal (p : Position) (m : Move) : Prop where
  source : m.fromSquare < 64
  target : m.toSquare < 64
  own : side (m.moving p) = p.sideToMove
  not_own : side (m.captured p) ≠ p.sideToMove
  not_king : kind (m.captured p) ≠ king
  moves : PseudoLegal p m
  safe : ∀ square : ℕ, square < 64 → standardBoard p m square = piece p.sideToMove king →
    ¬ Attacked (standardBoard p m) square (3 - p.sideToMove)

/-- A right is kept until its king or its rook moves or the rook is captured. -/
def keeps (p : Position) (m : Move) (s wing : ℕ) : Bool :=
  hasRight p.castlingRights s wing && m.moving p != piece s king &&
    m.fromSquare != corner s wing && m.toSquare != corner s wing

/-- The rights after a move. -/
def standardRights (p : Position) (m : Move) : ℕ :=
  (if keeps p m 1 0 then 1 else 0) + (if keeps p m 1 1 then 2 else 0) +
    (if keeps p m 2 0 then 4 else 0) + (if keeps p m 2 1 then 8 else 0)

/-- The position after a move, its en-passant square apart. -/
structure Successor (p : Position) (m : Move) (after : Position) : Prop where
  board : ∀ square : ℕ, square < 64 → after.pieces square = standardBoard p m square
  side : after.sideToMove = 3 - p.sideToMove
  rights : after.castlingRights = standardRights p m

/-! ## What the planner accepts -/

variable {p : Position} {m : Move} {s wing : ℕ}

theorem validPosition_side (h : validPosition p) : p.sideToMove = white ∨ p.sideToMove = black := by
  simp only [validPosition, Bool.and_eq_true, decide_eq_true_eq] at h
  grind

theorem validPosition_rights (h : validPosition p) :
    p.castlingRights ≤ 15 ∧ ValidRights p 1 ∧ ValidRights p 2 := by
  simp only [validPosition, Bool.and_eq_true, decide_eq_true_eq] at h
  grind

theorem validPosition_passing (h : validPosition p) (hp : p.legalEnPassantSquare < 64) :
    ValidEnPassant p p.legalEnPassantSquare := by
  simp only [validPosition, Bool.and_eq_true, Bool.or_eq_true, beq_iff_eq, decide_eq_true_eq,
    noSquare] at h
  grind

theorem piece_of_side {q s k : ℕ} (hs : s = white ∨ s = black) (h : side q = s) (hk : kind q = k)
    (hq : q < 16) : q = piece s k := by
  subst hk
  interval_cases q <;> grind [side, kind, piece, white, black]

theorem clear_rights : ∀ r ≤ 15, ∀ k w a b c d : Bool,
    [(1, 0, a), (1, 1, b), (2, 0, c), (2, 1, d)].foldl (fun rights (s, wing, lost) =>
      if lost then clear rights ((1 <<< wing) <<< (if s = 1 then 0 else 2)) else rights)
      (if k then clear r (if w then 3 else 12) else r) =
    (if hasRight r 1 0 && !(k && w) && !a then 1 else 0) +
      (if hasRight r 1 1 && !(k && w) && !b then 2 else 0) +
      (if hasRight r 2 0 && !(k && !w) && !c then 4 else 0) +
      (if hasRight r 2 1 && !(k && !w) && !d then 8 else 0) := by
  decide +kernel

theorem losesRook_iff (hv : ValidRights p s) (hw : wing = 0 ∨ wing = 1)
    (h : hasRight p.castlingRights s wing) :
    losesRook p m s wing ↔ m.fromSquare = corner s wing ∨ m.toSquare = corner s wing := by
  have hr : p.pieces (corner s wing) = piece s rook := by
    rcases hw with rfl | rfl
    · exact hv.2.1 h
    · exact hv.2.2 h
  constructor
  · rintro (h | h) <;> simp [h.1]
  · rintro (h | h)
    · exact Or.inl ⟨h, by rw [Move.moving, h, hr]⟩
    · exact Or.inr ⟨h, by rw [Move.captured, h, hr]⟩

theorem keeps_eq (hv : ValidRights p s) (hs : s = white ∨ s = black) (hw : wing = 0 ∨ wing = 1)
    (own : side (m.moving p) = p.sideToMove) (valid : m.moving p < 16) :
    keeps p m s wing = (hasRight p.castlingRights s wing &&
      !(decide (kind (m.moving p) = king) && decide (p.sideToMove = s)) &&
      !decide (losesRook p m s wing)) := by
  have hk : m.moving p = piece s king ↔ kind (m.moving p) = king ∧ p.sideToMove = s := by
    constructor
    · intro h
      rw [← own, h]
      rcases hs with rfl | rfl <;> decide
    · rintro ⟨h₁, h₂⟩
      exact piece_of_side hs (own.trans h₂) h₁ valid
  by_cases h : hasRight p.castlingRights s wing
  · have hl := losesRook_iff (m := m) hv hw h
    rw [keeps]
    grind
  · simp [keeps, h]

theorem expectedRights_eq (hp : validPosition p) (own : side (m.moving p) = p.sideToMove)
    (valid : m.moving p < 16) : expectedRights p m = standardRights p m := by
  obtain ⟨hr, h₁, h₂⟩ := validPosition_rights hp
  have hs := validPosition_side hp
  have hb : decide (p.sideToMove = 2) = !decide (p.sideToMove = 1) := by
    grind [white, black]
  have hk := clear_rights p.castlingRights hr (decide (kind (m.moving p) = king))
    (decide (p.sideToMove = white)) (decide (losesRook p m 1 0)) (decide (losesRook p m 1 1))
    (decide (losesRook p m 2 0)) (decide (losesRook p m 2 1))
  simp only [List.foldl, decide_eq_true_eq] at hk
  rw [standardRights, keeps_eq h₁ (.inl rfl) (.inl rfl) own valid,
    keeps_eq h₁ (.inl rfl) (.inr rfl) own valid, keeps_eq h₂ (.inr rfl) (.inl rfl) own valid,
    keeps_eq h₂ (.inr rfl) (.inr rfl) own valid, hb]
  simp only [expectedRights, List.foldl]
  exact hk

theorem validPosition_square {square : ℕ} (h : validPosition p) (hs : square < 64) :
    ValidSquare square (p.pieces square) := by
  simp only [validPosition, Bool.and_eq_true, List.all_eq_true, List.mem_range,
    decide_eq_true_eq] at h
  grind

theorem validPosition_lt {square : ℕ} (h : validPosition p) (hs : square < 64) :
    p.pieces square < 16 := by
  have := validPosition_square h hs
  grind [ValidSquare]

theorem attacks_pawn {board : ℕ → ℕ} {source target : ℕ} (hk : kind (board source) = pawn)
    (h : Attacks board source target) :
    (file target - file source).natAbs = 1 ∧
      rank target - rank source = forward (side (board source)) := by
  simpa [Attacks, hk, pawn, knight, king, bishop, rook, queen] using h

theorem Legal.ne (hl : Legal p m) : m.fromSquare ≠ m.toSquare := by
  intro h
  refine hl.not_own (Eq.trans ?_ hl.own)
  rw [Move.captured, Move.moving, h]

theorem standardBoard_ordinary (hf : m.form = ordinary) :
    standardBoard p m = Function.update (Function.update p.pieces m.fromSquare 0) m.toSquare
      (if m.promotionKind = 0 then m.moving p else piece p.sideToMove m.promotionKind) := by
  ext square
  simp [standardBoard, hf, ordinary, enPassant, castleKing, castleQueen, Function.update_apply,
    Move.moving]

theorem expectedPieces_ordinary (hf : m.form = ordinary)
    (hpr : kind (m.moving p) ≠ pawn ∧ m.promotionKind = 0 ∨
      kind (m.moving p) = pawn ∧ Promotes p m) :
    expectedPieces p m = some (standardBoard p m) := by
  rw [standardBoard_ordinary hf]
  by_cases h : m.promotionKind = 0
  · have : ¬ (kind (m.moving p) = pawn ∧
        m.toSquare / 8 = if p.sideToMove = white then 7 else 0) := by
      rintro ⟨hk, hr⟩
      simp [hk, Promotes, hr, h, knight, bishop, rook, queen] at hpr
    simp_all [expectedPieces, ordinary, enPassant, castleKing, castleQueen]
  · have hk : kind (m.moving p) = pawn ∧
        m.toSquare / 8 = if p.sideToMove = white then 7 else 0 := by
      by_contra hn
      simp_all [Promotes]
    simp [expectedPieces, hf, ordinary, enPassant, castleKing, castleQueen, h, hk]

theorem expectedPieces_passing (hp : validPosition p) (hl : Legal p m) (hf : m.form = enPassant)
    (hk : kind (m.moving p) = pawn) (hpr : m.promotionKind = 0)
    (ht : p.legalEnPassantSquare = m.toSquare) (ha : Attacks p.pieces m.fromSquare m.toSquare) :
    expectedPieces p m = some (standardBoard p m) := by
  obtain ⟨hfile, hrank⟩ := attacks_pawn hk ha
  have hv := validPosition_passing hp (ht ▸ hl.target)
  rw [ht] at hv
  obtain ⟨htr, hte, htp, -⟩ := hv
  obtain ⟨r, hr⟩ : ∃ r, r = m.fromSquare / 8 := ⟨_, rfl⟩
  have hranks : r = (if p.sideToMove = white then 4 else 3) ∧ m.toSquare / 8 ≠ r := by
    rw [show side (p.pieces m.fromSquare) = p.sideToMove from hl.own] at hrank
    simp only [rank, forward] at hrank
    rcases validPosition_side hp with hs | hs <;> simp [hs, white, black] at htr hrank ⊢ <;> omega
  have hfiles : m.toSquare % 8 + 1 = m.fromSquare % 8 ∨
      m.toSquare % 8 = m.fromSquare % 8 + 1 := by
    simp only [file] at hfile
    omega
  have hb : standardBoard p m = Function.update (Function.update (Function.update p.pieces
      m.fromSquare 0) m.toSquare (m.moving p)) (r * 8 + m.toSquare % 8) 0 := by
    ext square
    simp [standardBoard, hf, hpr, enPassant, castleKing, castleQueen, Function.update_apply,
      Move.moving, ← hr]
    grind
  rw [hb]
  simp only [expectedPieces, hf, enPassant, castleKing, castleQueen]
  rw [← hranks.1] 
  simp [hk, hpr, ht, Move.captured, hte, ← hr, htr, hfiles]
  grind

theorem expectedPieces_castle {wing : ℕ} (hp : validPosition p)
    (hf : m.form = if wing = 0 then castleKing else castleQueen) (hpr : m.promotionKind = 0)
    (hk : kind (m.moving p) = king)
    (hr : hasRight p.castlingRights p.sideToMove (if wing = 0 then 0 else 1) = true)
    (hs : m.fromSquare = base p.sideToMove + 4)
    (ht : m.toSquare = base p.sideToMove + if wing = 0 then 6 else 2)
    (he : ∀ n ∈ if wing = 0 then [5, 6] else [1, 2, 3], p.pieces (base p.sideToMove + n) = 0) :
    expectedPieces p m = some (standardBoard p m) := by
  have hv : ValidRights p p.sideToMove := by
    obtain ⟨-, h₁, h₂⟩ := validPosition_rights hp
    rcases validPosition_side hp with h | h <;> rw [h] <;> assumption
  have hb : standardBoard p m = Function.update (Function.update (Function.update
      (Function.update p.pieces m.fromSquare 0) m.toSquare (m.moving p))
      (base p.sideToMove + if wing = 0 then 7 else 0) 0)
      (base p.sideToMove + if wing = 0 then 5 else 3) (piece p.sideToMove rook) := by
    ext square
    by_cases hw : wing = 0 <;>
      simp [standardBoard, hf, hpr, enPassant, castleKing, castleQueen, Function.update_apply,
        Move.moving, hs, ht, hw] <;> grind
  rw [hb]
  by_cases hw : wing = 0
  · have hc := hv.2.1
    simp_all [expectedPieces, castleKing, castleQueen, corner, List.range']
  · have hc := hv.2.2
    simp_all [expectedPieces, castleKing, castleQueen, corner, List.range']

theorem Legal.expectedPieces_eq (hp : validPosition p) (hl : Legal p m) :
    expectedPieces p m = some (standardBoard p m) := by
  cases hl.moves with
  | officer hk hf hpr => exact expectedPieces_ordinary hf (.inl ⟨hk, hpr⟩)
  | capture hk hf hpr => exact expectedPieces_ordinary hf (.inr ⟨hk, hpr⟩)
  | push hk hf hpr => exact expectedPieces_ordinary hf (.inr ⟨hk, hpr⟩)
  | doublePush hk hf hpr _ _ _ hr₁ hr₂ =>
    refine expectedPieces_ordinary hf (.inr ⟨hk, ?_⟩)
    have hn : ¬ m.toSquare / 8 = if p.sideToMove = white then 7 else 0 := by
      simp only [rank, forward] at hr₂
      split_ifs at * <;> omega
    simp [Promotes, hn, hpr]
  | passing hk hf hpr ht ha => exact expectedPieces_passing hp hl hf hk hpr ht ha
  | castle wing hf hpr hk hr hs ht he => exact expectedPieces_castle hp hf hpr hk hr hs ht he

theorem Legal.form_le (hl : Legal p m) : m.form ≤ enPassant := by
  cases hl.moves <;> grind [ordinary, castleKing, castleQueen, enPassant]

theorem Legal.promotion (hl : Legal p m) :
    ¬ (m.promotionKind ≠ 0 ∧ (m.promotionKind < knight ∨ queen < m.promotionKind)) := by
  cases hl.moves <;> grind [Promotes, knight, bishop, rook, queen]

/-- Two positions that differ at most in the en-passant square. -/
structure SameButPassing (a b : Position) : Prop where
  board : ∀ square : ℕ, square < 64 → a.pieces square = b.pieces square
  side : a.sideToMove = b.sideToMove
  rights : a.castlingRights = b.castlingRights
  reserved : a.reserved = b.reserved

theorem validTransition_iff {after : Position} : validTransition p m after ↔
    (m.fromSquare < 64 ∧ m.toSquare < 64 ∧ m.fromSquare ≠ m.toSquare ∧ m.form ≤ enPassant ∧
      ¬ (m.promotionKind ≠ 0 ∧ (m.promotionKind < knight ∨ queen < m.promotionKind)) ∧
      side (m.moving p) = p.sideToMove ∧ side (m.captured p) ≠ p.sideToMove ∧
      kind (m.captured p) ≠ king) ∧
    ∃ expected, expectedPieces p m = some expected ∧ after.sideToMove = 3 - p.sideToMove ∧
      (∀ square : ℕ, square < 64 → after.pieces square = expected square) ∧
      after.castlingRights = expectedRights p m ∧
      (after.legalEnPassantSquare = noSquare ∨ DoubleStep p m ∧
        after.legalEnPassantSquare = (m.fromSquare + m.toSquare) / 2) := by
  rw [validTransition]
  split_ifs with h₁ h₂
  · grind
  · grind
  · cases expectedPieces p m <;> simp; grind

/-- Every accepted successor of a move is the same but for the en-passant square, and after a legal
move the accepted ones are its standard successor, with the square a double step passed or none. -/
theorem validTransition_orthodox (p : Position) (m : Move) (hp : validPosition p) :
    (∀ a b, validPosition a → validPosition b → validTransition p m a → validTransition p m b →
      SameButPassing a b) ∧
    (Legal p m → ∀ after, validTransition p m after ↔ Successor p m after ∧
      (after.legalEnPassantSquare = noSquare ∨ DoubleStep p m ∧
        after.legalEnPassantSquare = (m.fromSquare + m.toSquare) / 2)) := by
  constructor
  · intro a b ha hb h₁ h₂
    obtain ⟨-, e, he, hs, hq, hr, -⟩ := validTransition_iff.1 h₁
    obtain ⟨-, e', he', hs', hq', hr', -⟩ := validTransition_iff.1 h₂
    obtain rfl : e = e' := Option.some.inj (he.symm.trans he')
    refine ⟨fun square h => (hq square h).trans (hq' square h).symm, hs.trans hs'.symm,
      hr.trans hr'.symm, ?_⟩
    ext i
    simp only [validPosition, Bool.and_eq_true, decide_eq_true_eq] at ha hb
    grind
  · intro hl after
    rw [validTransition_iff, hl.expectedPieces_eq hp,
      expectedRights_eq hp hl.own (validPosition_lt hp hl.source)]
    constructor
    · rintro ⟨-, e, he, hs, hq, hr, hpass⟩
      obtain rfl := Option.some.inj he
      exact ⟨⟨hq, hs, hr⟩, hpass⟩
    · rintro ⟨⟨hq, hs, hr⟩, hpass⟩
      exact ⟨⟨hl.source, hl.target, hl.ne, hl.form_le, hl.promotion, hl.own, hl.not_own,
        hl.not_king⟩, _, rfl, hs, hq, hr, hpass⟩

/-- A king with its rook, and the other side's king. -/
def kingAndRook : Position where
  pieces square := if square = 4 then 6 else if square = 7 then 4 else if square = 60 then 14 else 0
  sideToMove := white
  castlingRights := 1
  legalEnPassantSquare := noSquare
  reserved _ := 0

theorem validTransition_orthodox_castles :
    validTransition kingAndRook ⟨4, 6, 0, castleKing⟩
      { kingAndRook with
        pieces := standardBoard kingAndRook ⟨4, 6, 0, castleKing⟩
        sideToMove := black
        castlingRights := 0 } = true :=
  ((validTransition_orthodox kingAndRook _ (by decide +kernel)).2
    { source := by decide
      target := by decide
      own := by decide
      not_own := by decide
      not_king := by decide
      moves := .castle 0 rfl rfl rfl (by decide) rfl rfl (by decide) (by decide +kernel)
        (by decide +kernel)
      safe := by decide +kernel } _).2 ⟨⟨fun _ _ => rfl, rfl, by decide⟩, .inl rfl⟩

end Laplace.Chess
