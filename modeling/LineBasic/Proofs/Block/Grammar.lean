import LineBasic.Proofs.Expr.Parser
import LineBasic.Program

namespace LineBasic

namespace Block

-- What may stand between the elements of a list and after the last one.
def isListSeparator (token : Token) : Bool :=
  token.kind = .comma || token.kind = .semicolon

def isName (token : Token) : Bool :=
  match token.kind with
  | .variable => true
  | .command _ => true
  | _ => false

-- The elements of a PRINT and their tokens: nothing, or expressions with separators between them
-- and perhaps one more at the end.
inductive PrintList : List Expr → List Token → Prop where
  | empty : PrintList [] []
  | last {e : Expr} (he : e.Layered) : PrintList [e] e.tokens
  | more {e : Expr} {es : List Expr} {separator : Token} {ts : List Token} (he : e.Layered)
      (hs : isListSeparator separator) (hl : PrintList es ts) :
      PrintList (e :: es) (e.tokens ++ separator :: ts)

-- No list of elements that starts where `ts` starts is longer than `ts`.
def Longest (ts after : List Token) : Prop :=
  ∀ es' ts' after', PrintList es' ts' → ts' ++ after' = ts ++ after → ts'.length ≤ ts.length

-- A statement without a body, its tokens, and the tokens after them, which limit a PRINT.
inductive Derives : Stmt → List Token → List Token → Prop where
  | label {name : Word} {after : List Token} : Derives (.label name) [⟨name, .label⟩] after
  | assign {name sign : Word} {value : Expr} {after : List Token} (hv : value.Layered) :
      Derives (.assign name value)
        (⟨name, .variable⟩ :: ⟨sign, .operator .eq⟩ :: value.tokens) after
  | print {keyword : Word} {elements : List Expr} {ts after : List Token}
      (hl : PrintList elements ts) (hmax : Longest ts after) :
      Derives (.print keyword elements) (⟨keyword, .command .Print⟩ :: ts) after
  | input {keyword name : Word} {after : List Token} :
      Derives (.input keyword none name) [⟨keyword, .command .Input⟩, ⟨name, .variable⟩] after
  | prompt {keyword word name : Word} {text : Bytes} {after : List Token} :
      Derives (.input keyword (some text) name)
        [⟨keyword, .command .Input⟩, ⟨word, .string text⟩, ⟨name, .variable⟩] after
  | separatedPrompt {keyword word name : Word} {text : Bytes} {separator : Token}
      {after : List Token} (hs : isListSeparator separator) :
      Derives (.input keyword (some text) name)
        [⟨keyword, .command .Input⟩, ⟨word, .string text⟩, separator, ⟨name, .variable⟩] after
  | goto {keyword : Word} {name : Token} {after : List Token} (hn : isName name) :
      Derives (.goto keyword name.toWord) [⟨keyword, .command .Goto⟩, name] after
  | gosub {keyword : Word} {name : Token} {after : List Token} (hn : isName name) :
      Derives (.gosub keyword name.toWord) [⟨keyword, .command .Gosub⟩, name] after
  | ret {keyword : Word} {after : List Token} :
      Derives (.ret keyword) [⟨keyword, .command .Return⟩] after
  | stop {keyword : Word} {after : List Token} :
      Derives (.stop keyword) [⟨keyword, .command .End⟩] after

-- The tokens right after the NEXT of a FOR: its variable, or nothing if no variable follows.
inductive Repeats (name : Word) : List Token → List Token → Prop where
  | variable {repeated : Word} {after : List Token} (h : repeated.text = name.text) :
      Repeats name [⟨repeated, .variable⟩] after
  | nothing {after : List Token} (h : ∀ word rest, after ≠ ⟨word, .variable⟩ :: rest) :
      Repeats name [] after

-- A body, its tokens, and the tokens after them: separators and statements in any order.
inductive Body : Block → List Token → List Token → Prop where
  | done {after : List Token} : Body .done [] after
  | separator {block : Block} {token : Token} {ts after : List Token} (hs : isSeparator token)
      (hb : Body block ts after) : Body block (token :: ts) after
  | simple {stmt : Stmt} {rest : Block} {ts us after : List Token}
      (hs : Derives stmt ts (us ++ after)) (hr : Body rest us after) :
      Body (.simple stmt rest) (ts ++ us) after
  | branch {keyword thenWord endWord : Word} {condition : Expr} {body rest : Block}
      {ts us after : List Token} (hc : condition.Layered)
      (hb : Body body ts (⟨endWord, .command .Endif⟩ :: us ++ after)) (hr : Body rest us after) :
      Body (.branch keyword condition body rest)
        (⟨keyword, .command .If⟩ :: condition.tokens ++ ⟨thenWord, .command .Then⟩ :: ts ++
          ⟨endWord, .command .Endif⟩ :: us) after
  | choice {keyword thenWord otherwise endWord : Word} {condition : Expr}
      {body alternative rest : Block} {ts vs us after : List Token} (hc : condition.Layered)
      (hb : Body body ts
        (⟨otherwise, .command .Else⟩ :: vs ++ ⟨endWord, .command .Endif⟩ :: us ++ after))
      (ha : Body alternative vs (⟨endWord, .command .Endif⟩ :: us ++ after))
      (hr : Body rest us after) :
      Body (.choice keyword condition body otherwise alternative rest)
        (⟨keyword, .command .If⟩ :: condition.tokens ++ ⟨thenWord, .command .Then⟩ :: ts ++
          ⟨otherwise, .command .Else⟩ :: vs ++ ⟨endWord, .command .Endif⟩ :: us) after
  | loop {keyword name sign toWord next : Word} {first last : Expr} {body rest : Block}
      {ts ws us after : List Token} (hf : first.Layered) (hl : last.Layered)
      (hb : Body body ts (⟨next, .command .Next⟩ :: ws ++ us ++ after))
      (hn : Repeats name ws (us ++ after)) (hr : Body rest us after) :
      Body (.loop keyword name first last body next rest)
        (⟨keyword, .command .For⟩ :: ⟨name, .variable⟩ :: ⟨sign, .operator .eq⟩ :: first.tokens ++
          ⟨toWord, .command .To⟩ :: last.tokens ++ ts ++ ⟨next, .command .Next⟩ :: ws ++ us) after

end Block

-- An instruction without the positions it names.
inductive Head where
  | simple (stmt : Stmt)
  | branch (keyword : Word) (condition : Expr)
  | otherwise (keyword : Word)
  | loop (keyword name : Word) (first last : Expr)
  | next (keyword : Word)
  deriving DecidableEq, Repr

namespace Instr

def head : Instr → Head
  | .simple stmt => .simple stmt
  | .branch keyword condition _ _ => .branch keyword condition
  | .otherwise keyword _ => .otherwise keyword
  | .loop keyword name first last _ => .loop keyword name first last
  | .next keyword _ => .next keyword

end Instr

namespace Block

-- The statements of a block in source order, with one for each ELSE and one for each NEXT.
def heads : Block → List Head
  | .done => []
  | .simple stmt rest => .simple stmt :: rest.heads
  | .branch keyword condition body rest => .branch keyword condition :: body.heads ++ rest.heads
  | .choice keyword condition body otherwise alternative rest =>
    .branch keyword condition :: body.heads ++ .otherwise otherwise :: alternative.heads ++
      rest.heads
  | .loop keyword name first last body next rest =>
    .loop keyword name first last :: body.heads ++ .next next :: rest.heads

theorem map_head_flatten (block : Block) (base : Nat) :
    (block.flatten base).map Instr.head = block.heads := by
  induction block generalizing base with
  | done => rfl
  | simple stmt rest ih => simp [flatten, heads, ih, Instr.head]
  | branch keyword condition body rest ihb ihr => simp [flatten, heads, ihb, ihr, Instr.head]
  | choice keyword condition body otherwise alternative rest ihb iha ihr =>
    simp [flatten, heads, ihb, iha, ihr, Instr.head]
  | loop keyword name first last body next rest ihb ihr =>
    simp [flatten, heads, ihb, ihr, Instr.head]

end Block

end LineBasic
