import Mathlib.Tactic

/-!
# SELECT statements

A statement is a tree with a list of tokens and a set of base tables: the tables that it names,
apart from those names that stand for a common table expression where they are used. In the list
of tokens, a table stands after FROM, after JOIN or after a comma.
-/
namespace MinIODB.Query
open List

inductive JoinWord where
  | natural | inner | left | right | full | outer | cross | semi | anti | asof | positional

def JoinWord.text : JoinWord → String
  | .natural => "natural"
  | .inner => "inner"
  | .left => "left"
  | .right => "right"
  | .full => "full"
  | .outer => "outer"
  | .cross => "cross"
  | .semi => "semi"
  | .anti => "anti"
  | .asof => "asof"
  | .positional => "positional"

inductive Keyword where
  | select | from' | join | as' | on | using' | with' | recursive | union | intersect | except | all
  | where' | group | by' | having | order | limit | offset
  | ofJoin (w : JoinWord)

def Keyword.text : Keyword → String
  | .select => "select"
  | .from' => "from"
  | .join => "join"
  | .as' => "as"
  | .on => "on"
  | .using' => "using"
  | .with' => "with"
  | .recursive => "recursive"
  | .union => "union"
  | .intersect => "intersect"
  | .except => "except"
  | .all => "all"
  | .where' => "where"
  | .group => "group"
  | .by' => "by"
  | .having => "having"
  | .order => "order"
  | .limit => "limit"
  | .offset => "offset"
  | .ofJoin w => w.text

inductive Piece where
  | bare (w : List Char)
  | ident (n : List Char)
  | literal (s : List Char)
  | symbol (c : Char)

inductive Token where
  | keyword (k : Keyword)
  | piece (p : Piece)

namespace Token

abbrev ident (n : List Char) : Token := .piece (.ident n)
abbrev symbol (c : Char) : Token := .piece (.symbol c)

end Token

section

inductive Introducer : Bool → Type where
  | from' : Introducer true
  | comma : Introducer false
  | join (kind : List JoinWord) : Introducer false

abbrev Alias := Option (Bool × List Char)

inductive SetOperator where
  | union | intersect | except

inductive ClauseKind where
  | where' | groupBy | having | orderBy | limit | offset

inductive Category where
  | expr
  | factor (first : Bool)
  | condition
  | sources
  | tail
  | ctes
  | query

inductive Sql : Category → Type where
  | pieces (ps : List Piece) : Sql .expr
  | subquery (q : Sql .query) : Sql .expr
  | append (a b : Sql .expr) : Sql .expr
  | table {first : Bool} (i : Introducer first) (n : List Char) (as : Alias) : Sql (.factor first)
  | derived {first : Bool} (i : Introducer first) (q : Sql .query) (as : Alias) : Sql (.factor first)
  | unconditional : Sql .condition
  | on (e : Sql .expr) (next : Sql .condition) : Sql .condition
  | using' (columns : List Piece) (next : Sql .condition) : Sql .condition
  | noMore : Sql .sources
  | more (f : Sql (.factor false)) (c : Sql .condition) (next : Sql .sources) : Sql .sources
  | done : Sql .tail
  | clause (kind : ClauseKind) (e : Sql .expr) (next : Sql .tail) : Sql .tail
  | cte (n : List Char) (q : Sql .query) : Sql .ctes
  | cteCons (n : List Char) (q : Sql .query) (next : Sql .ctes) : Sql .ctes
  | select (items : Sql .expr) (t : Sql .tail) : Sql .query
  | selectFrom (items : Sql .expr) (f : Sql (.factor true)) (ss : Sql .sources) (t : Sql .tail) :
      Sql .query
  | compound (a : Sql .query) (op : SetOperator) (all : Bool) (b : Sql .query) : Sql .query
  | paren (q : Sql .query) : Sql .query
  | with' (recursive : Bool) (cs : Sql .ctes) (body : Sql .query) : Sql .query

variable {k : Category}

def Introducer.tokens {first : Bool} : Introducer first → List Token
  | .from' => [.keyword .from']
  | .comma => [.symbol ',']
  | .join kind => kind.map (fun w => .keyword (.ofJoin w)) ++ [.keyword .join]

def aliasTokens : Alias → List Token
  | none => []
  | some (true, x) => [.keyword .as', .ident x]
  | some (false, x) => [.ident x]

def SetOperator.keyword : SetOperator → Keyword
  | .union => .union
  | .intersect => .intersect
  | .except => .except

def ClauseKind.tokens : ClauseKind → List Token
  | .where' => [.keyword .where']
  | .groupBy => [.keyword .group, .keyword .by']
  | .having => [.keyword .having]
  | .orderBy => [.keyword .order, .keyword .by']
  | .limit => [.keyword .limit]
  | .offset => [.keyword .offset]

def parens (ts : List Token) : List Token := .symbol '(' :: (ts ++ [.symbol ')'])

def Sql.tokens {k : Category} : Sql k → List Token
  | .pieces ps => ps.map .piece
  | .subquery q => parens q.tokens
  | .append a b => a.tokens ++ b.tokens
  | .table i n as => i.tokens ++ (.ident n :: aliasTokens as)
  | .derived i q as => i.tokens ++ (parens q.tokens ++ aliasTokens as)
  | .unconditional => []
  | .on e next => .keyword .on :: (e.tokens ++ next.tokens)
  | .using' columns next => .keyword .using' :: (parens (columns.map .piece) ++ next.tokens)
  | .noMore => []
  | .more f c next => f.tokens ++ (c.tokens ++ next.tokens)
  | .done => []
  | .clause kind e next => kind.tokens ++ (e.tokens ++ next.tokens)
  | .cte n q => .ident n :: .keyword .as' :: parens q.tokens
  | .cteCons n q next => .ident n :: .keyword .as' :: (parens q.tokens ++ (.symbol ',' :: next.tokens))
  | .select items t => .keyword .select :: (items.tokens ++ t.tokens)
  | .selectFrom items f ss t =>
    .keyword .select :: (items.tokens ++ (f.tokens ++ (ss.tokens ++ t.tokens)))
  | .compound a op all b =>
    a.tokens ++ (.keyword op.keyword :: ((if all then [.keyword .all] else []) ++ b.tokens))
  | .paren q => parens q.tokens
  | .with' recursive cs body =>
    .keyword .with' :: ((if recursive then [.keyword .recursive] else []) ++ (cs.tokens ++ body.tokens))

def Sql.named {k : Category} : Sql k → List (List Char)
  | .pieces _ => []
  | .subquery q => q.named
  | .append a b => a.named ++ b.named
  | .table _ n _ => [n]
  | .derived _ q _ => q.named
  | .unconditional => []
  | .on e next => e.named ++ next.named
  | .using' _ next => next.named
  | .noMore => []
  | .more f c next => f.named ++ (c.named ++ next.named)
  | .done => []
  | .clause _ e next => e.named ++ next.named
  | .cte _ q => q.named
  | .cteCons _ q next => q.named ++ next.named
  | .select items t => items.named ++ t.named
  | .selectFrom items f ss t => items.named ++ (f.named ++ (ss.named ++ t.named))
  | .compound a _ _ b => a.named ++ b.named
  | .paren q => q.named
  | .with' _ cs body => cs.named ++ body.named

def Sql.cteNames {k : Category} : Sql k → List (List Char)
  | .cte n _ => [n]
  | .cteCons n _ next => n :: next.cteNames
  | _ => []

def Sql.baseTables {k : Category} (scope : List (List Char)) : Sql k → List (List Char)
  | .pieces _ => []
  | .subquery q => q.baseTables scope
  | .append a b => a.baseTables scope ++ b.baseTables scope
  | .table _ n _ => if n ∈ scope then [] else [n]
  | .derived _ q _ => q.baseTables scope
  | .unconditional => []
  | .on e next => e.baseTables scope ++ next.baseTables scope
  | .using' _ next => next.baseTables scope
  | .noMore => []
  | .more f c next => f.baseTables scope ++ (c.baseTables scope ++ next.baseTables scope)
  | .done => []
  | .clause _ e next => e.baseTables scope ++ next.baseTables scope
  | .cte _ q => q.baseTables scope
  | .cteCons n q next => q.baseTables scope ++ next.baseTables (n :: scope)
  | .select items t => items.baseTables scope ++ t.baseTables scope
  | .selectFrom items f ss t =>
    items.baseTables scope ++ (f.baseTables scope ++ (ss.baseTables scope ++ t.baseTables scope))
  | .compound a _ _ b => a.baseTables scope ++ b.baseTables scope
  | .paren q => q.baseTables scope
  | .with' recursive cs body =>
    cs.baseTables (if recursive then cs.cteNames ++ scope else scope) ++
      body.baseTables (cs.cteNames ++ scope)

def Sql.commaFree {k : Category} : Sql k → Bool
  | .pieces _ => true
  | .subquery q => q.commaFree
  | .append a b => a.commaFree && b.commaFree
  | .table .comma _ _ => false
  | .table _ _ _ => true
  | .derived _ q _ => q.commaFree
  | .unconditional => true
  | .on e next => e.commaFree && next.commaFree
  | .using' _ next => next.commaFree
  | .noMore => true
  | .more f c next => f.commaFree && (c.commaFree && next.commaFree)
  | .done => true
  | .clause _ e next => e.commaFree && next.commaFree
  | .cte _ q => q.commaFree
  | .cteCons _ q next => q.commaFree && next.commaFree
  | .select items t => items.commaFree && t.commaFree
  | .selectFrom items f ss t => items.commaFree && (f.commaFree && (ss.commaFree && t.commaFree))
  | .compound a _ _ b => a.commaFree && b.commaFree
  | .paren q => q.commaFree
  | .with' _ cs body => cs.commaFree && body.commaFree

end

lemma Sql.named_of_baseTables {k : Category} {e : Sql k} {scope : List (List Char)} {n : List Char}
    (h : n ∈ e.baseTables scope) : n ∈ e.named := by
  induction e generalizing scope with
  | table =>
    rw [Sql.baseTables] at h
    split at h
    · cases h
    · exact h
  | _ => simp only [Sql.baseTables, Sql.named, mem_append] at h ⊢; grind

def Token.introduces : Token → Bool
  | .keyword .from' => true
  | .keyword .join => true
  | _ => false

def follows : List Token → Bool
  | .keyword .from' :: _ => false
  | .keyword .as' :: .piece (.ident _) :: _ => true
  | .keyword .as' :: _ => false
  | .piece (.bare _) :: _ => false
  | .piece (.literal _) :: _ => false
  | .piece (.symbol c) :: _ => c != '.'
  | _ => true

inductive Reads : List Token → List (List Char) → Prop where
  | nil : Reads [] []
  | skip {t : Token} {ts : List Token} {ns : List (List Char)} (ht : t.introduces = false)
      (h : Reads ts ns) : Reads (t :: ts) ns
  | name {t : Token} {n : List Char} {ts : List Token} {ns : List (List Char)}
      (ht : t.introduces = true) (hts : follows ts = true) (h : Reads ts ns) :
      Reads (t :: .ident n :: ts) (n :: ns)
  | derived {t : Token} {ts : List Token} {ns : List (List Char)} (ht : t.introduces = true)
      (h : Reads ts ns) : Reads (t :: .symbol '(' :: ts) ns

variable {t : Token} {ts us : List Token} {ns : List (List Char)} {n : List Char}

lemma Reads.skips (hus : ∀ t ∈ us, t.introduces = false) (h : Reads ts ns) : Reads (us ++ ts) ns := by
  induction us with
  | nil => exact h
  | cons u us ih =>
    exact .skip (hus u (.head _)) (ih (fun t ht => hus t (.tail u ht)))

lemma Reads.of_suffix (h : Reads ts ns) (hus : us <:+ ts) : ∃ ms, Reads us ms ∧ ms <:+ ns := by
  induction h with
  | nil => exact ⟨[], suffix_nil.mp hus ▸ .nil, suffix_rfl⟩
  | @skip t ts ns ht h ih =>
    obtain rfl | hus := suffix_cons_iff.mp hus
    · exact ⟨ns, .skip ht h, suffix_rfl⟩
    · exact ih hus
  | @name t n ts ns ht hts h ih =>
    obtain rfl | hus := suffix_cons_iff.mp hus
    · exact ⟨n :: ns, .name ht hts h, suffix_rfl⟩
    obtain rfl | hus := suffix_cons_iff.mp hus
    · exact ⟨ns, .skip rfl h, suffix_cons n ns⟩
    · obtain ⟨ms, hms, hsub⟩ := ih hus
      exact ⟨ms, hms, hsub.trans (suffix_cons n ns)⟩
  | @derived t ts ns ht h ih =>
    obtain rfl | hus := suffix_cons_iff.mp hus
    · exact ⟨ns, .derived ht h, suffix_rfl⟩
    obtain rfl | hus := suffix_cons_iff.mp hus
    · exact ⟨ns, .skip rfl h, suffix_rfl⟩
    · exact ih hus

lemma Reads.exists_of_mem (h : Reads ts ns) (hn : n ∈ ns) :
    ∃ t us, t.introduces ∧ follows us ∧ t :: .ident n :: us <:+ ts := by
  induction h with
  | nil => cases hn
  | @skip t ts ns ht h ih =>
    obtain ⟨u, us, hu, hus, hsuffix⟩ := ih hn
    exact ⟨u, us, hu, hus, hsuffix.trans (suffix_cons t ts)⟩
  | @name t m ts ns ht hts h ih =>
    obtain rfl | hn := mem_cons.mp hn
    · exact ⟨t, ts, ht, hts, suffix_rfl⟩
    · obtain ⟨u, us, hu, hus, hsuffix⟩ := ih hn
      exact ⟨u, us, hu, hus, hsuffix.trans ((suffix_cons _ ts).trans (suffix_cons t _))⟩
  | @derived t ts ns ht h ih =>
    obtain ⟨u, us, hu, hus, hsuffix⟩ := ih hn
    exact ⟨u, us, hu, hus, hsuffix.trans ((suffix_cons _ ts).trans (suffix_cons t _))⟩

open Token

lemma introduces_pieces (ps : List Piece) : ∀ t ∈ ps.map piece, t.introduces = false := by
  intro t ht
  obtain ⟨p, -, rfl⟩ := mem_map.mp ht
  rfl

lemma introduces_alias (as : Alias) : ∀ t ∈ aliasTokens as, t.introduces = false := by
  match as with
  | none => simp [aliasTokens]
  | some (true, x) => simp [aliasTokens, introduces]
  | some (false, x) => simp [aliasTokens, introduces]

lemma introduces_kind (kind : List JoinWord) :
    ∀ t ∈ kind.map (fun w => keyword (.ofJoin w)), t.introduces = false := by
  intro t ht
  obtain ⟨w, -, rfl⟩ := mem_map.mp ht
  rfl

lemma introduces_clause (kind : ClauseKind) : ∀ t ∈ kind.tokens, t.introduces = false := by
  cases kind <;> simp [ClauseKind.tokens, introduces]

lemma follows_alias {as : Alias} (h : follows ts) : follows (aliasTokens as ++ ts) := by
  match as with
  | none => exact h
  | some (true, x) => rfl
  | some (false, x) => rfl

lemma follows_introducer (i : Introducer false) : follows (i.tokens ++ ts) := by
  cases i with
  | comma => rfl
  | join kind => cases kind <;> rfl

def Category.optional : Category → Bool
  | .condition => true
  | .sources => true
  | .tail => true
  | _ => false

lemma Sql.follows_tokens {k : Category} {e : Sql k} (hk : k.optional) (h : follows ts) :
    follows (e.tokens ++ ts) = true := by
  cases e with
  | unconditional | noMore | done => exact h
  | on | using' => rfl
  | more f =>
    cases f with
    | table i | derived i =>
      rw [Sql.tokens, Sql.tokens, append_assoc, append_assoc]
      exact follows_introducer i
  | clause kind => cases kind <;> rfl
  | _ => cases hk

def Category.endsInTable : Category → Bool
  | .expr => false
  | .ctes => false
  | _ => true

lemma Sql.reads {k : Category} {e : Sql k} (hfree : e.commaFree)
    (hts : k.endsInTable → follows ts) (h : Reads ts ns) :
    Reads (e.tokens ++ ts) (e.named ++ ns) := by
  induction e generalizing ts ns with
    simp only [Sql.commaFree, Sql.tokens, Sql.named, parens, Bool.and_eq_true, cons_append, append_assoc]
      at hfree ⊢
  | pieces ps => exact h.skips (introduces_pieces ps)
  | subquery q ih | paren q ih =>
    exact .skip rfl (ih hfree (fun _ => rfl) (.skip rfl h))
  | append a b iha ihb =>
    exact iha hfree.1 nofun (ihb hfree.2 nofun h)
  | table i n as =>
    have hname : ∀ t : Token, t.introduces →
        Reads (t :: .ident n :: (aliasTokens as ++ ts)) (n :: ns) :=
      fun t ht => .name ht (follows_alias (hts rfl)) (h.skips (introduces_alias as))
    cases i with
    | from' => exact hname _ rfl
    | comma => cases hfree
    | join kind =>
      simp only [Introducer.tokens, append_assoc]
      exact (hname _ rfl).skips (introduces_kind kind)
  | derived i q as ih =>
    have hquery : Reads (q.tokens ++ (.symbol ')' :: (aliasTokens as ++ ts))) (q.named ++ ns) :=
      ih (by cases i <;> exact hfree) (fun _ => rfl) (.skip rfl (h.skips (introduces_alias as)))
    cases i with
    | from' => exact .derived rfl hquery
    | comma => exact .skip rfl (.skip rfl hquery)
    | join kind =>
      simp only [Introducer.tokens, append_assoc]
      exact Reads.skips (introduces_kind kind) (.derived rfl hquery)
  | unconditional | noMore | done => exact h
  | on e next ihe ihnext =>
    exact .skip rfl (ihe hfree.1 nofun (ihnext hfree.2 hts h))
  | using' columns next ih =>
    exact .skip rfl (.skip rfl ((Reads.skip rfl (ih hfree hts h)).skips (introduces_pieces columns)))
  | more f c next ihf ihc ihnext =>
    have hnext := hts rfl
    exact ihf hfree.1 (fun _ => follows_tokens rfl (follows_tokens rfl hnext))
      (ihc hfree.2.1 (fun _ => follows_tokens rfl hnext) (ihnext hfree.2.2 hts h))
  | clause kind e next ihe ihnext =>
    exact (ihe hfree.1 nofun (ihnext hfree.2 hts h)).skips (introduces_clause kind)
  | cte n q ih =>
    exact .skip rfl (.skip rfl (.skip rfl (ih hfree (fun _ => rfl) (.skip rfl h))))
  | cteCons n q next ihq ihnext =>
    exact .skip rfl (.skip rfl (.skip rfl (ihq hfree.1 (fun _ => rfl)
      (.skip rfl (.skip rfl (ihnext hfree.2 nofun h))))))
  | select items t ihi iht =>
    exact .skip rfl (ihi hfree.1 nofun (iht hfree.2 hts h))
  | selectFrom items f ss t ihi ihf ihs iht =>
    have htail := hts rfl
    exact .skip rfl (ihi hfree.1 nofun
      (ihf hfree.2.1 (fun _ => follows_tokens rfl (follows_tokens rfl htail))
        (ihs hfree.2.2.1 (fun _ => follows_tokens rfl htail) (iht hfree.2.2.2 hts h))))
  | compound a op all b iha ihb =>
    refine iha hfree.1 (fun _ => by cases op <;> rfl) (.skip (by cases op <;> rfl) (Reads.skips ?_
      (ihb hfree.2 hts h)))
    cases all <;> simp [introduces]
  | with' recursive cs body ihc ihb =>
    refine .skip rfl (Reads.skips ?_ (ihc hfree.1 nofun (ihb hfree.2 hts h)))
    cases recursive <;> simp [introduces]

end MinIODB.Query
