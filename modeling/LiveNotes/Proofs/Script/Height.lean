import LiveNotes.Proofs.Script.ParserComplete
import LiveNotes.Proofs.Script.Spelling

/-!
How tall a parsed expression can be. The depth that the parser counts is meant to be that of the tree,
but it goes back to where it was at the end of every chain, although the tree of the chain becomes the
left operand of the next: a chain on each of the seven levels of binary operators, one of accesses and
one of leading operators build on each other at one depth, and the height grows with the square of the
depth.

* `Expr.height`: the longest chain of expressions from the root, through functions and statements;
* `tallest k`: the greatest height of an expression that goes `k` levels deep, `4 * (k * k) - 2 * k`;
* `Reads.height_le`: what the grammar reads is no taller, by induction on its rules;
* `ReadWithin`: the texts that go at most some levels deep.
-/

namespace LiveNotes.Script

/-! ### Heights -/

mutual

/-- The longest chain of expressions from the root. -/
def Expr.height : Expr → Nat
  | .member object _ => object.height + 1
  | .index object key => max object.height key.height + 1
  | .unary _ operand => operand.height + 1
  | .binary _ left right => max left.height right.height + 1
  | .conditional condition yes no => max condition.height (max yes.height no.height) + 1
  | .call _ args => heightOfAll args + 1
  | .methodCall object _ args => max object.height (heightOfAll args) + 1
  | .function _ body => body.height + 1
  | .object fields => heightOfFields fields + 1
  | .array items => heightOfAll items + 1
  | _ => 1

/-- The longest chain of expressions in the body of a function. -/
def Body.height : Body → Nat
  | .expr e => e.height
  | .block statements => heightOfBlock statements

/-- The longest chain of expressions in a statement. -/
def Statement.height : Statement → Nat
  | .declare _ value => value.height
  | .give value => value.height
  | .expression e => e.height

/-- The height of the tallest of some expressions. -/
def heightOfAll : List Expr → Nat
  | [] => 0
  | e :: es => max e.height (heightOfAll es)

/-- The height of the tallest value of some fields. -/
def heightOfFields : List (String × Expr) → Nat
  | [] => 0
  | (_, e) :: fields => max e.height (heightOfFields fields)

/-- The height of the tallest of some statements. -/
def heightOfBlock : List Statement → Nat
  | [] => 0
  | s :: ss => max s.height (heightOfBlock ss)

end

theorem Expr.height_pos (e : Expr) : 0 < e.height := by
  cases e <;> simp [Expr.height]

/-- The height of what is read. -/
def Goal.height : (g : Goal) → g.Result → Nat
  | .expression, x | .functionTail, x | .conditional, x | .level _, x | .chain _ _, x | .unary, x
  | .operand, x | .links _, x | .fieldValue _, x | .atom, x => x.height
  | .block, ss | .statements, ss => heightOfBlock ss
  | .statement, s => s.height
  | .elements _, xs => heightOfAll xs
  | .fields, xs => heightOfFields xs

/-! ### Bounds -/

/-- The greatest height of an expression that goes some levels deep. -/
def tallest : Nat → Nat
  | 0 => 0
  | k + 1 => tallest k + 8 * k + 2

theorem tallest_eq (k : Nat) : tallest k + 2 * k = 4 * (k * k) := by
  induction k with
  | zero => rfl
  | succ k ih =>
    have hsquare : (k + 1) * (k + 1) = k * k + 2 * k + 1 := by
      rw [Nat.succ_mul, Nat.mul_succ]
      omega
    rw [tallest, hsquare]
    omega

theorem tallest_mono {k k' : Nat} (h : k ≤ k') : tallest k ≤ tallest k' := by
  induction h with
  | refl => exact Nat.le_refl _
  | step _ ih =>
    rw [tallest]
    omega

/-- The greatest height of an atom. -/
def tallestAtom (k : Nat) : Nat := max 1 (tallest k) + 1

theorem tallestAtom_mono {k k' : Nat} (h : k ≤ k') : tallestAtom k ≤ tallestAtom k' := by
  have := tallest_mono h
  unfold tallestAtom
  omega

/-- An atom, eight chains on it and a condition make an expression one level up. -/
theorem tallest_succ {k : Nat} (h : 0 < k) : tallest (k + 1) = tallestAtom k + 8 * k + 1 := by
  obtain ⟨j, rfl⟩ : ∃ j, k = j + 1 := ⟨k - 1, by omega⟩
  rw [tallest, tallestAtom, tallest]
  omega

/-- The greatest height of what is read; a chain adds its own length to what it starts from. -/
def Goal.bound : Goal → Nat → Nat
  | .expression, k => tallest k
  | .functionTail, k | .atom, k => tallestAtom k
  | .block, k | .statements, k | .statement, k | .elements _, k | .fields, k | .fieldValue _, k =>
    max 1 (tallest k)
  | .conditional, k => tallest (k + 1)
  | .level n, k => tallestAtom k + (n + 1) * k
  | .chain n left, k => max left.height (tallestAtom k + (n + 1) * k) + k
  | .unary, k | .operand, k => tallestAtom k + k
  | .links x, k => max x.height (tallestAtom k) + k

theorem Goal.bound_mono (g : Goal) {k k' : Nat} (h : k ≤ k') : g.bound k ≤ g.bound k' := by
  have h1 := tallest_mono h
  have h2 := tallestAtom_mono h
  have h3 := tallest_mono (Nat.succ_le_succ h)
  cases g with
  | level n | chain n left =>
    have h4 := Nat.mul_le_mul_left (n + 1) h
    simp only [Goal.bound]
    omega
  | _ =>
    simp only [Goal.bound]
    omega

theorem Goal.bound_left (g : Goal) (k k' : Nat) : g.bound k ≤ g.bound (max k k') :=
  g.bound_mono (Nat.le_max_left k k')

theorem Goal.bound_right (g : Goal) (k k' : Nat) : g.bound k' ≤ g.bound (max k k') :=
  g.bound_mono (Nat.le_max_right k k')

/-- A link of a chain, or an access, adds one to the taller of its parts. -/
theorem link_height_le {g : Goal} {a b y k k' : Nat} (hb : b ≤ g.bound k)
    (hy : y ≤ max (max a b + 1) (g.bound k') + k') :
    y ≤ max a (g.bound (max k k' + 1)) + (max k k' + 1) := by
  have h1 := g.bound_mono (show k ≤ max k k' + 1 by omega)
  have h2 := g.bound_mono (show k' ≤ max k k' + 1 by omega)
  omega

/-- A condition with two branches is one expression on a chain of the loosest level. -/
theorem choice_height_le {x yes no : Expr} {k k' k'' : Nat}
    (h : x.height ≤ (Goal.level levels).bound k) (hy : yes.height ≤ tallest k')
    (hn : no.height ≤ tallest k'') :
    (Expr.conditional x yes no).height ≤ tallest (max k (max k' k'') + 1) := by
  have hpos : 0 < k' := by
    -- There is no expression on no level at all.
    rcases Nat.eq_zero_or_pos k' with rfl | hpos
    · exact absurd hy (Nat.not_le_of_lt yes.height_pos)
    · exact hpos
  have h1 := (Goal.level levels).bound_mono (show k ≤ max k (max k' k'') by omega)
  have h2 := tallest_mono (show k' ≤ max k (max k' k'') by omega)
  have h3 := tallest_mono (show k'' ≤ max k (max k' k'') by omega)
  rw [tallest_succ (by omega)]
  simp only [Goal.bound, levels, tallestAtom, Expr.height] at *
  omega

theorem literal?_height {t : Token} {x : Expr} (h : literal? t = some x) : x.height = 1 := by
  unfold literal? at h
  split at h <;> cases h <;> rfl

/-- What the grammar reads is no taller than the depth allows. -/
theorem Reads.height_le {g : Goal} {ts rest : List Token} {x : g.Result} {k : Nat}
    (h : Reads g ts x rest k) : g.height x ≤ g.bound k := by
  induction h with
  | @wordFunction _ _ _ k _ ih | @arrowBlock _ _ _ _ _ k _ _ ih =>
    simp only [Goal.height, Goal.bound, Expr.height, Body.height, tallest, tallestAtom] at *
    omega
  | @arrowExpr _ _ _ _ _ k _ _ _ ih =>
    simp only [Goal.height, Goal.bound, Expr.height, Body.height, tallest] at *
    omega
  | noFunction _ _ _ ih => exact ih
  | named _ ih | nameless _ ih => exact Nat.succ_le_succ ih
  | braces _ ih => exact ih
  | noStatement => exact Nat.zero_le _
  | @oneStatement _ _ _ _ _ k k' _ _ _ _ ih ih' =>
    exact Nat.max_le.mpr ⟨Nat.le_trans ih (Goal.bound_left .statement k k'),
      Nat.le_trans ih' (Goal.bound_right .statements k k')⟩
  | declare _ ih | give _ _ ih | bare _ _ _ ih | fieldValue _ ih =>
    exact Nat.le_trans ih (Nat.le_max_right _ _)
  | declareOnly | giveNothing | fieldOnly => exact Nat.le_max_left _ _
  | @unconditional _ _ _ k _ _ ih =>
    simp only [Goal.height, Goal.bound, levels, tallest, tallestAtom] at *
    omega
  | choice _ _ _ ih ihy ihn => exact choice_height_le ih ihy ihn
  | tightest _ ih =>
    simp only [Goal.height, Goal.bound] at *
    omega
  | @level n _ _ _ _ _ k k' _ _ ih ih' =>
    have h1 := (Goal.level n).bound_left k k'
    have h2 := (Goal.level n).bound_right k k'
    have h3 := Nat.succ_mul (n + 1) (max k k')
    simp only [Goal.height, Goal.bound, Nat.succ_eq_add_one] at *
    omega
  | chainEnd => exact Nat.le_max_left _ _
  | @chain n _ _ _ _ _ _ _ _ _ _ _ _ _ ih ih' => exact link_height_le (g := .level n) ih ih'
  | noOperator _ _ ih => exact ih
  | @operator _ _ _ _ _ k _ _ ih =>
    have h1 := tallestAtom_mono (Nat.le_add_right k 1)
    simp only [Goal.height, Goal.bound, Expr.height] at *
    omega
  | @operand _ _ _ _ _ k k' _ _ ih ih' =>
    have h1 := Goal.atom.bound_left k k'
    have h2 := Goal.atom.bound_right k k'
    simp only [Goal.height, Goal.bound] at *
    omega
  | linksEnd => exact Nat.le_max_left _ _
  | @member _ _ _ _ _ k _ _ ih =>
    have h1 := tallestAtom_mono (Nat.le_add_right k 1)
    simp only [Goal.height, Goal.bound, Expr.height] at *
    omega
  | @methodCall _ _ _ _ _ _ _ k k' _ _ ih ih' =>
    exact link_height_le (g := .atom) (Nat.le_succ_of_le ih) ih'
  | @index _ _ _ _ _ _ k k' _ _ ih ih' =>
    refine link_height_le (g := .atom) (Nat.le_trans ih ?_) ih'
    simp only [Goal.bound, tallestAtom]
    omega
  | @call _ _ _ _ _ _ k k' _ _ ih ih' =>
    refine link_height_le (g := .atom) (Nat.le_succ_of_le ih) (Nat.le_trans ih' ?_)
    simp only [Goal.height, Goal.bound, Expr.height] at *
    omega
  | noElement | noField => exact Nat.zero_le _
  | @element _ _ _ _ _ _ k k' _ _ _ ih ih' =>
    have h1 := Goal.expression.bound_left k k'
    have h2 := (Goal.elements .comma).bound_right k k'
    simp only [Goal.height, Goal.bound, heightOfAll] at *
    omega
  | lastElement _ _ _ ih | lastField _ _ ih =>
    simp only [Goal.height, Goal.bound, heightOfAll, heightOfFields] at *
    omega
  | @field _ _ _ _ _ _ _ k k' _ _ _ ih ih' =>
    have h1 := (Goal.fieldValue "").bound_left k k'
    have h2 := Goal.fields.bound_right k k'
    simp only [Goal.height, Goal.bound, heightOfFields] at *
    omega
  | @literal t x _ h =>
    rw [Goal.height, literal?_height h]
    exact Nat.le_add_left 1 _
  | parentheses _ ih =>
    simp only [Goal.height, Goal.bound, tallestAtom] at *
    omega
  | array _ ih | object _ ih => exact Nat.succ_le_succ ih
  | atomFunction _ ih => exact ih

/-! ### The tallest texts -/

/-- A name behind a symbol, as often as wanted. -/
def repeated (sym : Symbol) : Nat → List Word
  | 0 => []
  | j + 1 => .symbol sym :: .a :: repeated sym j

/-- A symbol for an operator of each level. -/
def symbolAt : Nat → Symbol
  | 0 => .star
  | 1 => .plus
  | 2 => .lt
  | 3 => .eqEq
  | 4 => .andAnd
  | 5 => .orOr
  | _ => .questionQuestion

/-- Chains of some length on the levels below one, the tightest first. -/
def chains (j : Nat) : Nat → List Word
  | 0 => []
  | n + 1 => chains j n ++ repeated (symbolAt n) j

/-- An object at first; then an array of what was before, as the start of a chain of members and of
one chain on every level, each as long as the depth allows, and all that as a condition. -/
def tallWords : Nat → List Word
  | 0 => [.symbol .lBrace, .a, .symbol .rBrace]
  | k + 1 =>
    .symbol .lBracket :: (tallWords k ++ .symbol .rBracket :: (repeated .dot (k + 1) ++
      (chains (k + 1) levels ++ [.symbol .question, .a, .symbol .colon, .a])))

/-- The tokens that words spell. -/
def kindsOf (words : List Word) : List Token := words.map Word.token

theorem symbolAt_operator {n : Nat} (h : n < levels) :
    ∃ op, operatorAt? n (.symbol (symbolAt n)) = some op := by
  rw [← Option.isSome_iff_exists]
  exact (by decide : ∀ n < levels, (operatorAt? n (.symbol (symbolAt n))).isSome = true) n h

theorem symbolAt_tighter {n m : Nat} (h : n < levels) (hm : m < n) :
    operatorAt? m (.symbol (symbolAt n)) = none := by
  rw [← Option.isNone_iff_eq_none]
  exact (by decide : ∀ n < levels, ∀ m < n,
    (operatorAt? m (.symbol (symbolAt n))).isNone = true) n h m hm

theorem not_links_symbolAt (n : Nat) : ¬ Links (.symbol (symbolAt n)) := by
  unfold symbolAt
  split <;> simp [Links]

/-- What holds of a symbol and of the token behind its repetitions holds of the first token. -/
theorem peek_repeated {P : Token → Prop} {s : Symbol} {rest : List Token} (hs : P (.symbol s))
    (hr : P (peek rest)) (j : Nat) : P (peek (kindsOf (repeated s j) ++ rest)) := by
  cases j with
  | zero => exact hr
  | succ j => exact hs

/-- A chain adds its length to the height of what it starts from. -/
theorem exists_reads_repeated {n : Nat} (hn : n < levels) (left : Expr) (j : Nat) :
    ∃ x : Expr, x.height = left.height + j ∧ ∀ rest, ¬ Links (peek rest) →
      (∀ m ≤ n, operatorAt? m (peek rest) = none) →
      Reads (.chain n left) (kindsOf (repeated (symbolAt n) j) ++ rest) x rest j := by
  induction j generalizing left with
  | zero => exact ⟨left, rfl, fun rest _ ho => .chainEnd (ho n (Nat.le_refl n))⟩
  | succ j ih =>
    obtain ⟨op, hop⟩ := symbolAt_operator hn
    obtain ⟨x, hheight, hx⟩ := ih (.binary op left (.identifier "a"))
    refine ⟨x, ?_, fun rest hl ho => ?_⟩
    · have := left.height_pos
      simp only [hheight, Expr.height]
      omega
    · have ha : Reads (.level n) (.identifier "a" :: (kindsOf (repeated (symbolAt n) j) ++ rest))
          (.identifier "a") (kindsOf (repeated (symbolAt n) j) ++ rest) 0 := by
        refine (Reads.toUnary (.literal rfl) rfl ?_).toLevel fun m hm => ?_
        · exact peek_repeated (P := (¬ Links ·)) (not_links_symbolAt n) hl j
        · exact peek_repeated (P := (operatorAt? m · = none)) (symbolAt_tighter hn hm)
            (ho m (Nat.le_of_lt hm)) j
      have := Reads.chain hop ha (hx rest hl ho)
      rwa [Nat.zero_max] at this

theorem exists_reads_members (x : Expr) (j : Nat) : ∃ y : Expr, y.height = x.height + j ∧
    ∀ rest, ¬ Links (peek rest) →
      Reads (.links x) (kindsOf (repeated .dot j) ++ rest) y rest j := by
  induction j generalizing x with
  | zero => exact ⟨x, rfl, fun _ hl => .linksEnd hl⟩
  | succ j ih =>
    obtain ⟨y, hheight, hy⟩ := ih (.member x "a")
    refine ⟨y, ?_, fun rest hl => .member ?_ (hy rest hl)⟩
    · simp only [hheight, Expr.height]
      omega
    · exact peek_repeated (P := (· ≠ .symbol .lParen)) (s := .dot) nofun
        (fun hp => hl (.inr (.inr hp))) j

/-- A chain on each level adds the length of one for every level. -/
theorem exists_reads_chains {base : List Token} {x : Expr} {k : Nat}
    (hb : ∀ rest, ¬ Links (peek rest) → Reads .unary (base ++ rest) x rest k) {n : Nat}
    (hn : n ≤ levels) : ∃ y : Expr, y.height = x.height + n * k ∧ ∀ rest, ¬ Links (peek rest) →
      (∀ m < n, operatorAt? m (peek rest) = none) →
      Reads (.level n) (base ++ (kindsOf (chains k n) ++ rest)) y rest k := by
  induction n with
  | zero => exact ⟨x, by omega, fun rest hl _ => .tightest (hb rest hl)⟩
  | succ n ih =>
    have hn' : n < levels := hn
    obtain ⟨left, hheight, hleft⟩ := ih (Nat.le_of_lt hn')
    obtain ⟨y, hheight', hy⟩ := exists_reads_repeated hn' left k
    refine ⟨y, by rw [hheight', hheight, Nat.succ_mul]; omega, fun rest hl ho => ?_⟩
    have hleft := hleft (kindsOf (repeated (symbolAt n) k) ++ rest)
      (peek_repeated (P := (¬ Links ·)) (not_links_symbolAt n) hl k)
      (fun m hm => peek_repeated (P := (operatorAt? m · = none)) (symbolAt_tighter hn' hm)
        (ho m (Nat.lt_succ_of_lt hm)) k)
    have := Reads.level hleft (hy rest hl fun m hm => ho m (Nat.lt_succ_of_le hm))
    simpa [kindsOf, chains] using this

/-- The tallest words are read as an expression as tall as the depth allows. -/
theorem exists_reads_tallWords (k : Nat) : ∃ x : Expr, x.height = tallest (k + 1) ∧
    ∀ rest, closes (peek rest) = true →
      Reads .expression (kindsOf (tallWords k) ++ rest) x rest (k + 1) := by
  induction k with
  | zero =>
    refine ⟨.object [("a", .identifier "a")], rfl, fun rest hc => ?_⟩
    have hobject : Reads .atom (kindsOf (tallWords 0) ++ rest) (.object [("a", .identifier "a")])
        rest 0 := .object (.lastField rfl (.fieldOnly nofun))
    exact (hobject.toUnary rfl (not_links_of_closes hc)).toExpression nofun
      (fun _ _ => not_arrowHead nofun nofun) hc
  | succ k ih =>
    obtain ⟨x, hheight, hx⟩ := ih
    obtain ⟨y, hyheight, hy⟩ := exists_reads_members (.array [x]) (k + 1)
    have hbase : ∀ rest, ¬ Links (peek rest) → Reads .unary (.symbol .lBracket ::
        (kindsOf (tallWords k) ++ .symbol .rBracket :: kindsOf (repeated .dot (k + 1))) ++ rest)
        y rest (k + 1) := by
      intro rest hl
      have harray : Reads (.elements .rBracket) (kindsOf (tallWords k) ++ .symbol .rBracket ::
          (kindsOf (repeated .dot (k + 1)) ++ rest)) [x] _ (k + 1) :=
        .lastElement nofun (by cases k <;> exact nofun) (hx _ rfl)
      have := Reads.noOperator rfl (.operand (.array harray) (hy rest hl))
      simpa using this
    obtain ⟨z, hzheight, hz⟩ := exists_reads_chains hbase (Nat.le_refl levels)
    refine ⟨.conditional z (.identifier "a") (.identifier "a"), ?_, fun rest hc => ?_⟩
    · rw [tallest, ← hheight]
      simp only [Expr.height, heightOfAll, levels] at hyheight hzheight ⊢
      omega
    · have hcondition := hz (.symbol .question :: .identifier "a" :: .symbol .colon ::
        .identifier "a" :: rest) (by simp [peek, Links])
        (by decide : ∀ m < levels, operatorAt? m (.symbol .question) = none)
      have := Reads.choice hcondition (reads_name rfl) (reads_name hc)
      rw [Nat.max_self, Nat.max_eq_left (Nat.le_add_left 1 k)] at this
      refine .noFunction nofun (fun _ _ => not_arrowHead nofun nofun) ?_
      simpa [kindsOf, tallWords, Word.symbol, Word.a] using this

/-- The text of the tallest words. -/
def tallText (k : Nat) : String := .ofList (spaced (tallWords k))

/-! ### The levels of a text -/

/-- A text is read as an expression that goes at most so many levels deep, as the parser counts them:
one for each expression within another, each leading operator and each link of a chain. -/
def ReadWithin (depth : Nat) (text : String) (x : Expr) : Prop :=
  ∃ ts rest k, tokenize text = .ok ts ∧ Reads .expression (ts.map Prod.fst) x rest k ∧ k ≤ depth ∧
    peek (skipSemicolons rest) = .eof

/-- The parser accepts what goes as deep as its greatest depth. -/
theorem parseExpression_ok_iff {text : String} {x : Expr} :
    parseExpression text = .ok x ↔ ReadWithin maxDepth text x := by
  constructor
  · exact parseExpression_reads
  · rintro ⟨ts, rest, k, hts, hr, hk, hrest⟩
    exact parseExpression_of_reads hts hr hrest hk

theorem ReadWithin.mono {text : String} {x : Expr} {depth depth' : Nat}
    (h : ReadWithin depth text x) (hd : depth ≤ depth') : ReadWithin depth' text x := by
  obtain ⟨ts, rest, k, hts, hr, hk, hrest⟩ := h
  exact ⟨ts, rest, k, hts, hr, Nat.le_trans hk hd, hrest⟩

theorem ReadWithin.height_le {text : String} {x : Expr} {depth : Nat}
    (h : ReadWithin depth text x) : x.height ≤ tallest depth := by
  obtain ⟨ts, rest, k, -, hr, hk, -⟩ := h
  exact Nat.le_trans hr.height_le (tallest_mono hk)

/-- The height bound of each depth is attained. -/
theorem exists_readWithin_tallText (k : Nat) :
    ∃ x : Expr, ReadWithin (k + 1) (tallText k) x ∧ x.height = tallest (k + 1) := by
  obtain ⟨x, hheight, hx⟩ := exists_reads_tallWords k
  obtain ⟨ts, hts, hkinds⟩ := tokenize_words (tallWords k)
  have hreads := hx [.eof] rfl
  rw [kindsOf, ← hkinds] at hreads
  exact ⟨x, ⟨ts, _, k + 1, hts, hreads, Nat.le_refl _, rfl⟩, hheight⟩

/-- A function that gives the tallest expression of some levels. -/
def tallFunction (k : Nat) : String :=
  .ofList (spaced (Word.a :: .symbol .arrow :: tallWords (k + 1)))

/-- The same with a function, which is a level and an expression more. -/
theorem exists_readWithin_tallFunction (k : Nat) : ∃ x : Expr,
    ReadWithin (k + 3) (tallFunction k) (.function ["a"] (.expr x)) ∧ x.height = tallest (k + 2) := by
  obtain ⟨x, hheight, hx⟩ := exists_reads_tallWords (k + 1)
  obtain ⟨ts, hts, hkinds⟩ := tokenize_words (Word.a :: .symbol .arrow :: tallWords (k + 1))
  have hfirst : peek (kindsOf (tallWords (k + 1)) ++ [.eof]) = .symbol .lBracket := rfl
  have hreads := Reads.arrowExpr (.inl ⟨"a", rfl, rfl⟩) (by rw [hfirst]; nofun) (hx [.eof] rfl)
  have hts' : ts.map Prod.fst =
      .identifier "a" :: .symbol .arrow :: (kindsOf (tallWords (k + 1)) ++ [.eof]) := hkinds
  rw [← hts'] at hreads
  exact ⟨x, ⟨ts, _, k + 3, hts, hreads, Nat.le_refl _, rfl⟩, hheight⟩

/-- Sixteen levels stay below eight times the greatest depth: they allow a height of 992. -/
theorem ReadWithin.height_le_of_sixteen {text : String} {x : Expr} (h : ReadWithin 16 text x) :
    x.height ≤ 8 * maxDepth :=
  Nat.le_trans h.height_le (by decide : tallest 16 ≤ 8 * maxDepth)

/-- One level more does not: it allows a height of 1122. -/
theorem exists_readWithin_height_gt {depth : Nat} (h : 16 < depth) :
    ∃ text e, ReadWithin depth text e ∧ 8 * maxDepth < e.height := by
  obtain ⟨e, he, hheight⟩ := exists_readWithin_tallText 16
  refine ⟨_, e, he.mono h, ?_⟩
  rw [hheight]
  decide

/-- The tree of a text is at most `8 * maxDepth` high if the text goes at most sixteen levels deep, and for
no greater number of levels does that hold of every text. Without that condition it is at most
`4 * (maxDepth * maxDepth) - 2 * maxDepth` high, and some text has a tree of that height. -/
theorem parse_height_le (text : String) :
    (∀ e, parseExpression text = .ok e → ReadWithin 16 text e → e.height ≤ 8 * maxDepth) ∧
    (∀ f, parseFunction text = .ok f → ReadWithin 16 text (.function f.params f.body) →
      (Expr.function f.params f.body).height ≤ 8 * maxDepth) ∧
    (∀ depth ≤ maxDepth, 16 < depth → ∃ text' e, parseExpression text' = .ok e ∧
      ReadWithin depth text' e ∧ 8 * maxDepth < e.height) ∧
    (∀ e, parseExpression text = .ok e → e.height ≤ 4 * (maxDepth * maxDepth) - 2 * maxDepth) ∧
    (∀ f, parseFunction text = .ok f →
      (Expr.function f.params f.body).height ≤ 4 * (maxDepth * maxDepth) - 2 * maxDepth) ∧
    ∃ text' e, parseExpression text' = .ok e ∧
      e.height = 4 * (maxDepth * maxDepth) - 2 * maxDepth := by
  have hmax : tallest maxDepth = 4 * (maxDepth * maxDepth) - 2 * maxDepth := by
    rw [← tallest_eq]
    omega
  have hle : ∀ e, parseExpression text = .ok e → e.height ≤ tallest maxDepth :=
    fun e h => (parseExpression_ok_iff.mp h).height_le
  rw [← hmax]
  refine ⟨fun _ _ h => h.height_le_of_sixteen, fun _ _ h => h.height_le_of_sixteen,
    fun depth hdepth hdeep => ?_, hle, fun f h => hle _ (parseFunction_ok h), ?_⟩
  · obtain ⟨text', e, he, hheight⟩ := exists_readWithin_height_gt hdeep
    exact ⟨text', e, parseExpression_ok_iff.mpr (he.mono hdepth), he, hheight⟩
  · obtain ⟨e, he, hheight⟩ := exists_readWithin_tallText (maxDepth - 1)
    exact ⟨_, e, parseExpression_ok_iff.mpr he, hheight⟩

/-- The bounds at texts of sixteen levels and of more. -/
theorem parse_height_le_tallText :
    (∃ e : Expr, parseExpression (tallText 15) = .ok e ∧ ReadWithin 16 (tallText 15) e ∧
      e.height ≤ 8 * maxDepth) ∧
    (∃ f : Lambda, parseFunction (tallFunction 13) = .ok f ∧
      ReadWithin 16 (tallFunction 13) (.function f.params f.body) ∧
      (Expr.function f.params f.body).height ≤ 8 * maxDepth) ∧
    (∃ e : Expr, parseExpression (tallText 16) = .ok e ∧
      e.height ≤ 4 * (maxDepth * maxDepth) - 2 * maxDepth) ∧
    ∃ f : Lambda, parseFunction (tallFunction 15) = .ok f ∧
      (Expr.function f.params f.body).height ≤ 4 * (maxDepth * maxDepth) - 2 * maxDepth := by
  refine ⟨?_, ?_, ?_, ?_⟩
  · obtain ⟨e, he, -⟩ := exists_readWithin_tallText 15
    have hparse := parseExpression_ok_iff.mpr (he.mono (by decide))
    exact ⟨e, hparse, he, (parse_height_le _).1 e hparse he⟩
  · obtain ⟨x, hx, -⟩ := exists_readWithin_tallFunction 13
    have hparse := parseFunction_of_expression (parseExpression_ok_iff.mpr (hx.mono (by decide)))
    exact ⟨_, hparse, hx, (parse_height_le _).2.1 _ hparse hx⟩
  · obtain ⟨e, he, -⟩ := exists_readWithin_tallText 16
    have hparse := parseExpression_ok_iff.mpr (he.mono (by decide))
    exact ⟨e, hparse, (parse_height_le _).2.2.2.1 e hparse⟩
  · obtain ⟨x, hx, -⟩ := exists_readWithin_tallFunction 15
    have hparse := parseFunction_of_expression (parseExpression_ok_iff.mpr (hx.mono (by decide)))
    exact ⟨_, hparse, (parse_height_le _).2.2.2.2.1 _ hparse⟩

/-- Eight times the greatest depth is no bound, neither for expressions nor for functions: chains on one
level after the other are taller. -/
theorem exists_height_gt :
    (∃ e : Expr, parseExpression (tallText 16) = .ok e ∧ 8 * maxDepth < e.height) ∧
    ∃ f : Lambda, parseFunction (tallFunction 15) = .ok f ∧
      8 * maxDepth < (Expr.function f.params f.body).height := by
  have htall : 8 * maxDepth < tallest 17 := by decide
  constructor
  · obtain ⟨e, he, hheight⟩ := exists_readWithin_tallText 16
    exact ⟨e, parseExpression_ok_iff.mpr (he.mono (by decide)), hheight ▸ htall⟩
  · obtain ⟨x, hx, hheight⟩ := exists_readWithin_tallFunction 15
    refine ⟨_, parseFunction_of_expression (parseExpression_ok_iff.mpr (hx.mono (by decide))), ?_⟩
    rw [Expr.height, Body.height, hheight]
    exact Nat.lt_succ_of_lt htall

end LiveNotes.Script
