import LiveNotes.Proofs.Script.Consumption
import LiveNotes.Proofs.Script.Lexing
import LiveNotes.Proofs.Script.ParserComplete
import LiveNotes.Proofs.Script.ParserSound

/-!
Where the names in an expression come from: from names in its source, except that a field without a value
reads the variable of its key, and the key may be written as a string or a number.

* `Expr.names`: every name in an expression, with the role that it has there;
* `Named ts n`: tokens in which a name is written;
* `Sourced ts left names`: names that are written, unless they have the place of a name on the left;
* `Reads.sourced`: what is read has its names from the tokens that it is read from;
* `parseExpression_names`: the names of a parsed text.
-/

namespace LiveNotes.Script

open Number

/-! ### The names in an expression -/

/-- What a name is in an expression. A shorthand is the variable that a field has as its value when the key
has the same name. -/
inductive Role where
  | variable | shorthand | callee | parameter | declared | member | method
deriving DecidableEq, Repr

/-- Whether an expression is the variable of a name. -/
def Expr.isVariable (name : String) : Expr → Bool
  | .identifier other => other == name
  | _ => false

mutual

/-- The names in an expression with their roles. The keys of fields are no names. -/
def Expr.names : Expr → List (Role × String)
  | .identifier name => [(.variable, name)]
  | .member object name => (.member, name) :: object.names
  | .index object key => object.names ++ key.names
  | .unary _ operand => operand.names
  | .binary _ left right => left.names ++ right.names
  | .conditional condition yes no => condition.names ++ (yes.names ++ no.names)
  | .call callee args => (.callee, callee) :: namesOfAll args
  | .methodCall object method args => (.method, method) :: (object.names ++ namesOfAll args)
  | .function params body => params.map (.parameter, ·) ++ body.names
  | .object fields => namesOfFields fields
  | .array items => namesOfAll items
  | _ => []

/-- The names in the body of a function. -/
def Body.names : Body → List (Role × String)
  | .expr e => e.names
  | .block statements => namesOfBlock statements

/-- The names in a statement. -/
def Statement.names : Statement → List (Role × String)
  | .declare name value => (.declared, name) :: value.names
  | .give value => value.names
  | .expression e => e.names

/-- The names in some expressions. -/
def namesOfAll : List Expr → List (Role × String)
  | [] => []
  | e :: es => e.names ++ namesOfAll es

/-- The names in the values of some fields. -/
def namesOfFields : List (String × Expr) → List (Role × String)
  | [] => []
  | (key, e) :: fields =>
    (if e.isVariable key then [(.shorthand, key)] else e.names) ++ namesOfFields fields

/-- The names in some statements. -/
def namesOfBlock : List Statement → List (Role × String)
  | [] => []
  | s :: ss => s.names ++ namesOfBlock ss

end

/-! ### Names that are written -/

/-- Tokens with a key of a field, a string or a number, that has no value: a comma or a brace is next. -/
def HasBareKey (ts : List Token) (key : String) : Prop :=
  ∃ t behind, [t, behind] <:+: ts ∧ (t = .string key ∨ ∃ i, t = .integer i ∧ integerText i = key) ∧
    (behind = .symbol .comma ∨ behind = .symbol .rBrace)

/-- A name is written in tokens: as a name or, for a shorthand, as a key. -/
def Named (ts : List Token) (n : Role × String) : Prop :=
  .identifier n.2 ∈ ts ∨ n.1 = .shorthand ∧ HasBareKey ts n.2

/-- The same name in another role. It becomes no shorthand and stays one. -/
def Follows (n m : Role × String) : Prop := n.2 = m.2 ∧ (m.1 = .shorthand → n.1 = .shorthand)

/-- Names that follow some others or are written in tokens. -/
def Sourced (ts : List Token) (left names : List (Role × String)) : Prop :=
  ∀ n ∈ names, (∃ m ∈ left, Follows n m) ∨ Named ts n

section

variable {ts us : List Token} {n m l : Role × String} {left names more : List (Role × String)}

theorem Follows.refl (n : Role × String) : Follows n n := ⟨rfl, id⟩

theorem Follows.trans (h : Follows n m) (h' : Follows m l) : Follows n l :=
  ⟨h.1.trans h'.1, fun hl => h.2 (h'.2 hl)⟩

theorem Named.follow (h : Named ts m) (hnm : Follows n m) : Named ts n := by
  rw [Named, hnm.1]
  exact h.imp_right fun ⟨hm, h⟩ => ⟨hnm.2 hm, h⟩

theorem Named.mono (h : Named ts n) (hsub : ts <:+ us) : Named us n := by
  rcases h with h | ⟨hn, t, behind, hts, hkey⟩
  · exact .inl (hsub.subset h)
  · exact .inr ⟨hn, t, behind, hts.trans hsub.isInfix, hkey⟩

theorem sourced_self (ts : List Token) (left : List (Role × String)) : Sourced ts left left :=
  fun n hn => .inl ⟨n, hn, .refl n⟩

theorem sourced_nil (ts : List Token) (left : List (Role × String)) : Sourced ts left [] := nofun

theorem Sourced.cons (hn : Named ts n) (h : Sourced ts left names) : Sourced ts left (n :: names) :=
  List.forall_mem_cons.2 ⟨.inr hn, h⟩

theorem Sourced.append (h : Sourced ts left names) (h' : Sourced ts left more) :
    Sourced ts left (names ++ more) := List.forall_mem_append.2 ⟨h, h'⟩

theorem Sourced.mono (h : Sourced ts left names) (hsub : ts <:+ us) : Sourced us left names :=
  fun n hn => (h n hn).imp_right fun hnamed => hnamed.mono hsub

/-- The other names have a source themselves. -/
theorem Sourced.trans (h : Sourced ts more names) (h' : Sourced ts left more) : Sourced ts left names := by
  intro n hn
  rcases h n hn with ⟨m, hm, hnm⟩ | hnamed
  · rcases h' m hm with ⟨l, hl, hml⟩ | hnamed
    · exact .inl ⟨l, hl, hnm.trans hml⟩
    · exact .inr (hnamed.follow hnm)
  · exact .inr hnamed

theorem sourced_rename {role other : Role} {name : String} (h : role = .shorthand → other = .shorthand)
    (ts : List Token) : Sourced ts [(role, name)] [(other, name)] :=
  List.forall_mem_singleton.2 (.inl ⟨_, List.mem_singleton_self _, rfl, h⟩)

/-- Names that are all written. -/
theorem Sourced.weaken (h : Sourced ts [] names) : Sourced ts left names := h.trans (sourced_nil ts left)

theorem sourced_nil_iff : Sourced ts [] names ↔ ∀ n ∈ names, Named ts n :=
  forall₂_congr fun _ _ => ⟨fun h => h.resolve_left nofun, .inr⟩

end

/-! ### The names of single tokens -/

/-- A field without a value reads the variable that its key is the name of. -/
theorem named_fieldOnly {t behind : Token} {key : String} (h : fieldName? t = some key)
    (hb : behind = .symbol .comma ∨ behind = .symbol .rBrace) (ts : List Token) :
    Named (t :: behind :: ts) (.shorthand, key) := by
  have hinfix : [t, behind] <:+: t :: behind :: ts := (List.prefix_append [t, behind] ts).isInfix
  cases t with
  | identifier name =>
    cases h
    exact .inl List.mem_cons_self
  | string s =>
    cases h
    exact .inr ⟨rfl, _, _, hinfix, .inl rfl, hb⟩
  | integer i =>
    cases h
    exact .inr ⟨rfl, _, _, hinfix, .inr ⟨i, rfl, rfl⟩, hb⟩
  | _ => cases h

theorem sourced_literal {t : Token} {x : Expr} (h : literal? t = some x) (ts : List Token) :
    Sourced (t :: ts) [] x.names := by
  cases t with
  | identifier name =>
    cases h
    exact .cons (.inl List.mem_cons_self) (sourced_nil _ _)
  | symbol | functionWord | returnWord | declareWord | eof => cases h
  | _ =>
    cases h
    exact sourced_nil _ _

theorem mem_nameTokens {params : List String} {name : String} (h : name ∈ params) :
    .identifier name ∈ nameTokens params := by
  fun_induction nameTokens params with
  | case1 => cases h
  | case2 other => simpa using h
  | case3 other names hne ih =>
    rcases List.mem_cons.1 h with rfl | h
    · exact List.mem_cons_self
    · exact List.mem_cons_of_mem _ (List.mem_cons_of_mem _ (ih h))

theorem sourced_paramTokens (params : List String) (ts : List Token) :
    Sourced (paramTokens params ++ ts) [] (params.map (Role.parameter, ·)) := by
  intro n hn
  obtain ⟨name, hname, rfl⟩ := List.mem_map.1 hn
  exact .inr (.inl (by simp [paramTokens, mem_nameTokens hname]))

theorem sourced_arrowHead {ts body : List Token} {params : List String} (h : ArrowHead ts params body) :
    Sourced ts [] (params.map (Role.parameter, ·)) := by
  rcases h with ⟨name, rfl, rfl⟩ | rfl
  · exact .cons (.inl List.mem_cons_self) (sourced_nil _ _)
  · exact sourced_paramTokens params _

theorem ArrowHead.suffix {ts body : List Token} {params : List String} (h : ArrowHead ts params body) :
    body <:+ ts := by
  obtain ⟨head, rfl, -⟩ := h.exists_head
  exact List.suffix_append _ _

theorem skipSemicolons_suffix (ts : List Token) : skipSemicolons ts <:+ ts := by
  obtain ⟨front, hts, -⟩ := exists_semicolons ts
  exact ⟨front, hts.symm⟩

/-! ### The names of what is read -/

/-- The names in what is read, those of an expression on the left included. -/
def Goal.names : (g : Goal) → g.Result → List (Role × String)
  | .expression, x | .functionTail, x | .conditional, x | .level _, x | .chain _ _, x | .unary, x
  | .operand, x | .links _, x | .atom, x => x.names
  | .block, ss | .statements, ss => namesOfBlock ss
  | .statement, s => s.names
  | .elements _, xs => namesOfAll xs
  | .fields, xs => namesOfFields xs
  | .fieldValue name, x => if x.isVariable name then [(.shorthand, name)] else x.names

/-- The names that stand before the tokens: those of an expression on the left, and the key of a field of
which the tokens give no value. -/
def Goal.leftNames : Goal → List Token → List (Role × String)
  | .chain _ left, _ => left.names
  | .links x, _ => x.names
  | .fieldValue _, .symbol .colon :: _ => []
  | .fieldValue name, _ => [(.shorthand, name)]
  | _, _ => []

theorem leftNames_fieldOnly {ts : List Token} (h : peek ts ≠ .symbol .colon) (name : String) :
    Goal.leftNames (.fieldValue name) ts = [(.shorthand, name)] := by
  rw [Goal.leftNames]
  rintro ts rfl
  exact h rfl

/-- A value behind a colon is written there, as a variable of the key's name too. -/
theorem Sourced.fieldValue {ts : List Token} {x : Expr} (h : Sourced ts [] x.names) (name : String) :
    Sourced ts [] (Goal.names (.fieldValue name) x) := by
  rw [Goal.names]
  split
  · next hvariable =>
    cases x with
    | identifier other =>
      obtain rfl : other = name := eq_of_beq hvariable
      have hsame : Sourced ts [(.variable, other)] [(.shorthand, other)] := sourced_rename (by nofun) ts
      exact hsame.trans h
    | _ => cases hvariable
  · exact h

/-- With its key in front a field has all its names from the tokens. -/
theorem Sourced.field {t behind : Token} {ts rest : List Token} {x : Expr} {key : String} {k : Nat}
    (h : Sourced ts (Goal.leftNames (.fieldValue key) ts) (Goal.names (.fieldValue key) x))
    (hx : Reads (.fieldValue key) ts x (behind :: rest) k) (hn : fieldName? t = some key)
    (hb : behind = .symbol .comma ∨ behind = .symbol .rBrace) :
    Sourced (t :: ts) [] (Goal.names (.fieldValue key) x) := by
  refine (h.mono (List.suffix_cons t ts)).trans ?_
  cases hx with
  | fieldValue => exact sourced_nil _ _
  | fieldOnly hcolon =>
    rw [leftNames_fieldOnly hcolon]
    exact .cons (named_fieldOnly hn hb rest) (sourced_nil _ _)

/-- Every name in what is read is written in the tokens it is read from. -/
theorem Reads.sourced {g : Goal} {ts rest : List Token} {x : g.Result} {k : Nat}
    (h : Reads g ts x rest k) : Sourced ts (g.leftNames ts) (g.names x) := by
  induction h with
  | wordFunction _ ih | braces _ ih | give _ _ ih | array _ ih | object _ ih | atomFunction _ ih
  | operator _ _ ih | parentheses _ ih => exact ih.mono (List.suffix_cons _ _)
  | noFunction _ _ _ ih | bare _ _ _ ih | unconditional _ _ ih | tightest _ ih | noOperator _ _ ih =>
    exact ih
  | arrowBlock ha _ ih | arrowExpr ha _ _ ih => exact (sourced_arrowHead ha).append (ih.mono ha.suffix)
  | @nameless params _ _ _ _ _ ih =>
    exact (sourced_paramTokens params _).append (ih.mono (List.suffix_append _ _))
  | @named name params _ _ _ _ _ ih =>
    have htail := (sourced_paramTokens params _).append (ih.mono (List.suffix_append _ _))
    exact htail.mono (List.suffix_cons _ _)
  | noStatement | giveNothing | noElement | noField => exact sourced_nil _ _
  | chainEnd | linksEnd => exact sourced_self _ _
  | @oneStatement ts _ _ _ _ _ _ _ _ h _ ih ih' =>
    have hsub := skipSemicolons_suffix ts
    exact (ih.mono hsub).append (ih'.mono (h.suffix.trans hsub))
  | @declare name ts _ _ _ _ ih =>
    have hsub := List.suffix_append [Token.declareWord, .identifier name, .symbol .assign] ts
    exact .cons (.inl (by simp)) (ih.mono hsub)
  | declareOnly => exact .cons (.inl (by simp)) (sourced_nil _ _)
  | choice h hy _ ih ihy ihn =>
    have hyes := (List.suffix_cons _ _).trans h.suffix
    have hno := ((List.suffix_cons _ _).trans hy.suffix).trans hyes
    exact ih.append ((ihy.mono hyes).append (ihn.mono hno))
  | level h _ ih ih' | operand h _ ih ih' => exact (ih'.mono h.suffix).trans ih
  | @chain _ _ _ _ t _ ts _ _ _ _ _ h _ ih ih' =>
    have hright := ih.mono (List.suffix_cons t ts)
    have hrest := ih'.mono (h.suffix.trans (List.suffix_cons t ts))
    exact hrest.trans ((sourced_self _ _).append hright.weaken)
  | @member _ _ name ts _ _ _ _ ih =>
    have hrest := ih.mono (List.suffix_append [.symbol .dot, .identifier name] ts)
    exact hrest.trans (.cons (.inl (by simp)) (sourced_self _ _))
  | @methodCall _ _ name _ ts _ _ _ _ h _ ih ih' =>
    have hsub := List.suffix_append [Token.symbol .dot, .identifier name, .symbol .lParen] ts
    have hargs := ih.mono hsub
    have hrest := ih'.mono (h.suffix.trans hsub)
    exact hrest.trans (.cons (.inl (by simp)) ((sourced_self _ _).append hargs.weaken))
  | @index _ _ _ ts _ _ _ _ h _ ih ih' =>
    have hsub := List.suffix_cons (.symbol .lBracket) ts
    have hkey := ih.mono hsub
    have hrest := ih'.mono (((List.suffix_cons _ _).trans h.suffix).trans hsub)
    exact hrest.trans ((sourced_self _ _).append hkey.weaken)
  | @call callee _ _ ts _ _ _ _ h _ ih ih' =>
    have hsub := List.suffix_cons (.symbol .lParen) ts
    have hargs := ih.mono hsub
    have hrest := ih'.mono (h.suffix.trans hsub)
    -- the callee was the variable on the left
    have hcallee : Sourced (.symbol .lParen :: ts) [(.variable, callee)] [(.callee, callee)] :=
      sourced_rename (by nofun) _
    exact hrest.trans (hcallee.append hargs.weaken)
  | element _ h _ ih ih' => exact ih.append (ih'.mono ((List.suffix_cons _ _).trans h.suffix))
  | lastElement _ _ _ ih => exact ih.append (sourced_nil _ _)
  | field hn h _ ih ih' =>
    have hmid := (List.suffix_cons _ _).trans h.suffix
    exact (ih.field h hn (.inl rfl)).append (ih'.mono (hmid.trans (List.suffix_cons _ _)))
  | lastField hn h ih => exact (ih.field h hn (.inr rfl)).append (sourced_nil _ _)
  | fieldValue _ ih => exact (ih.fieldValue _).mono (List.suffix_cons _ _)
  | @fieldOnly name _ hcolon =>
    have hvariable : (Expr.identifier name).isVariable name = true := beq_self_eq_true name
    rw [Goal.names, if_pos hvariable, leftNames_fieldOnly hcolon]
    exact sourced_self _ _
  | literal h => exact sourced_literal h _

/-! ### The names of a parsed text -/

/-- Every name in a parsed text is a name of the text, whatever its role. Only the variable that a field
without a value reads may be none, when the key of the field is a string or a number. -/
theorem parseExpression_names {text : String} {e : Expr} (h : parseExpression text = .ok e) :
    ∃ ts, tokenize text = .ok ts ∧
      (∀ n ∈ e.names, n.1 ≠ .shorthand → .identifier n.2 ∈ ts.map Prod.fst) ∧
      ∀ name, (.shorthand, name) ∈ e.names →
        .identifier name ∈ ts.map Prod.fst ∨ HasBareKey (ts.map Prod.fst) name := by
  obtain ⟨ts, rest, k, hts, hreads, -⟩ := parseExpression_reads h
  have hnames : ∀ n ∈ e.names, Named (ts.map Prod.fst) n := sourced_nil_iff.1 hreads.sourced
  refine ⟨ts, hts, fun n hn hrole => ?_, fun name hname => ?_⟩
  · exact (hnames n hn).resolve_right fun hkey => hrole hkey.1
  · exact (hnames _ hname).imp_right And.right

/-- The names of a call and of a member. -/
theorem parseExpression_names_member : parseExpression "f(a).b" =
      .ok (.member (.call "f" [.identifier "a"]) "b") ∧
    ∃ ts, tokenize "f(a).b" = .ok ts ∧
      ∀ n ∈ [(Role.member, "b"), (.callee, "f"), (.variable, "a")], .identifier n.2 ∈ ts.map Prod.fst := by
  have htokens : tokenize "f(a).b" = .ok [(.identifier "f", 0), (.symbol .lParen, 1), (.identifier "a", 2),
      (.symbol .rParen, 3), (.symbol .dot, 4), (.identifier "b", 5), (.eof, 6)] :=
    tokenize_eq_ok_iff.2 (.token rfl rfl (.token rfl rfl (.token rfl rfl (.token rfl rfl
      (.token rfl rfl (.token rfl rfl (.finish rfl)))))))
  have hargs : Reads (.elements .rParen) [.identifier "a", .symbol .rParen, .symbol .dot, .identifier "b", .eof]
      [.identifier "a"] [.symbol .dot, .identifier "b", .eof] 1 :=
    .lastElement (by decide) (by simp [peek]) (reads_name rfl)
  have hmember : Reads (.links (.call "f" [.identifier "a"])) [.symbol .dot, .identifier "b", .eof]
      (.member (.call "f" [.identifier "a"]) "b") [.eof] 1 :=
    .member (by simp [peek]) (.linksEnd (by simp [Links, peek]))
  have hcall : Reads .unary _ _ [.eof] 2 :=
    .noOperator rfl (.operand (.literal (t := .identifier "f") rfl) (.call hargs hmember))
  have hreads := hcall.toExpression (by simp [peek]) (fun params body => by simp [ArrowHead, paramTokens]) rfl
  have hparse := parseExpression_of_reads htokens hreads rfl (by decide)
  obtain ⟨ts, hts, hnames, -⟩ := parseExpression_names hparse
  have hrole : ∀ n ∈ [(Role.member, "b"), (.callee, "f"), (.variable, "a")], n.1 ≠ .shorthand := by simp
  exact ⟨hparse, ts, hts, fun n hn => hnames n hn (hrole n hn)⟩

/-- Every key alone in its braces is a field that reads the variable of that name. -/
theorem reads_fieldOnly {t : Token} {key : String} {rest : List Token} (h : fieldName? t = some key)
    (hc : closes (peek rest) = true) :
    Reads .expression (.symbol .lBrace :: t :: .symbol .rBrace :: rest)
      (.object [(key, .identifier key)]) rest 1 :=
  ((Reads.object (.lastField h (.fieldOnly nofun))).toUnary rfl (not_links_of_closes hc)).toExpression nofun
    (fun _ _ => not_arrowHead nofun nofun) hc

/-- The number 1 is read as a variable, in a text without any name. -/
theorem exists_variable_not_named : ∃ ts, tokenize "{1}" = .ok ts ∧
    parseExpression "{1}" = .ok (.object [("1", .identifier "1")]) ∧
    ∀ name, .identifier name ∉ ts.map Prod.fst := by
  have htokens : tokenize "{1}" = .ok [(.symbol .lBrace, 0), (.integer 1, 1), (.symbol .rBrace, 2),
      (.eof, 3)] :=
    tokenize_eq_ok_iff.2 (.token rfl rfl (.token rfl rfl (.token rfl rfl (.finish rfl))))
  have hreads : Reads .expression [.symbol .lBrace, .integer 1, .symbol .rBrace, .eof]
      (.object [("1", .identifier "1")]) [.eof] 1 := reads_fieldOnly rfl rfl
  exact ⟨_, htokens, parseExpression_of_reads htokens hreads rfl (by decide), by simp⟩

end LiveNotes.Script
