import LineBasic.Declaration.Note

namespace LineBasic.Declaration

-- How strongly an operator binds its sides. Zero is for what is no such operator.
def strength (operator : String) : Nat :=
  if operator = "||" then 1
  else if operator = "&&" then 2
  else if ["==", "!=", "<", "<=", ">", ">="].contains operator then 3
  else if ["+", "-", "|", "^"].contains operator then 4
  else if ["*", "/", "%", "<<", ">>", "&", "&^"].contains operator then 5
  else 0

structure Label where
  place : Place
  text : String
  deriving DecidableEq, Repr

inductive Direction where
  | both
  | send
  | receive
  deriving DecidableEq, Repr

mutual

-- An expression or a type as it is written. Nothing is there where a part that may be left out is
-- left out.
inductive Term where
  | absent
  | name (label : Label)
  | literal (place : Place) (kind : LiteralKind) (text : String)
  | composite (type : Term) (opening : Place) (elements : List Term) (closing : Place)
  | closure (place : Place) (signature : Signature) (body : Block)
  | paren (opening : Place) (inner : Term) (closing : Place)
  | select (target : Term) (member : Label)
  | index (target : Term) (opening : Place) (indices : List Term) (closing : Place)
  | slice (target : Term) (opening : Place) (low high max : Term) (closing : Place)
  | assertion (target : Term) (opening : Place) (type : Term) (closing : Place)
  | call (callee : Term) (opening : Place) (arguments : List Term) (dots closing : Place)
  | star (place : Place) (inner : Term)
  | unary (place : Place) (operator : String) (inner : Term)
  | binary (left : Term) (place : Place) (operator : String) (right : Term)
  | pair (key : Term) (colon : Place) (value : Term)
  | array (place : Place) (length element : Term)
  | ellipsis (place : Place) (element : Term)
  | record (place : Place) (fields : Fields)
  | function (place : Place) (signature : Signature)
  | interface (place : Place) (fields : Fields)
  | table (place : Place) (key value : Term)
  | channel (place : Place) (direction : Direction) (arrow : Place) (element : Term)

-- A field, a method, a parameter or a result. It may have no name, a tag, and a remark after it.
inductive Field where
  | mk (labels : List Label) (type tag : Term) (hasRemark : Bool)

-- Fields with what stands around them, and the least size of what is in between.
inductive Fields where
  | mk (opening : Place) (fields : List Field) (closing : Place) (weight : Nat)

inductive Signature where
  | mk (parameters results : Fields) (endLine : Nat)

inductive Block where
  | mk (opening : Place) (statements : List Statement) (closing : Place) (weight : Nat)

inductive Statement where
  | absent
  | empty (place : Place)
  | expression (term : Term)
  | send (channel : Term) (arrow : Place) (value : Term)
  | step (term : Term) (place : Place) (operator : String)
  | assign (targets : List Term) (place : Place) (operator : String) (values : List Term)
  | spawn (place : Place) (keyword : String) (call : Term)
  | giveBack (place : Place) (results : List Term)
  | jump (place : Place) (keyword : String) (label : Term)
  | block (block : Block)
  | labeled (label : Label) (colon : Place) (statement : Statement)
  | declare (item : Item)
  | choice (place : Place) (init : Statement) (condition : Term) (body : Block)
      (otherwise : Statement)
  | switch (place : Place) (init : Statement) (subject : Term) (body : Block)
  | typeSwitch (place : Place) (init subject : Statement) (body : Block)
  | select (place : Place) (body : Block)
  | clause (place : Place) (items : List Term) (colon : Place) (body : List Statement)
  | transfer (place : Place) (transfer : Statement) (colon : Place) (body : List Statement)
  | loop (place : Place) (init : Statement) (condition : Term) (post : Statement) (body : Block)
  | range (place : Place) (key value : Term) (operatorPlace : Place) (operator : String)
      (subject : Term) (body : Block)

inductive Spec where
  | type (label : Label) (parameters : Fields) (equals : Place) (type : Term) (hasRemark : Bool)
  | value (labels : List Label) (type : Term) (values : List Term) (hasRemark : Bool)

-- A declaration as a whole. Comments may lead up to it.
inductive Item where
  | group (place : Place) (keyword : String) (opening : Place) (specs : List Spec)
      (closing : Place) (hasLead : Bool)
  | function (place : Place) (receiver : Fields) (label : Label) (parameters : Fields)
      (signature : Signature) (body : Statement) (hasLead : Bool)

end

namespace Fields

def none : Fields :=
  .mk .unknown [] .unknown 0

def opening : Fields → Place
  | .mk opening _ _ _ => opening

def closing : Fields → Place
  | .mk _ _ closing _ => closing

def list : Fields → List Field
  | .mk _ fields _ _ => fields

def weight : Fields → Nat
  | .mk _ _ _ weight => weight

end Fields

namespace Block

def opening : Block → Place
  | .mk opening _ _ _ => opening

def statements : Block → List Statement
  | .mk _ statements _ _ => statements

def closing : Block → Place
  | .mk _ _ closing _ => closing

def weight : Block → Nat
  | .mk _ _ _ weight => weight

end Block

namespace Signature

def parameters : Signature → Fields
  | .mk parameters _ _ => parameters

def results : Signature → Fields
  | .mk _ results _ => results

def endLine : Signature → Nat
  | .mk _ _ line => line

end Signature

namespace Term

def place : Term → Place
  | .absent => .unknown
  | .name label => label.place
  | .literal place _ _ => place
  | .composite .absent opening _ _ => opening
  | .composite type _ _ _ => type.place
  | .closure place _ _ => place
  | .paren opening _ _ => opening
  | .select target _ => target.place
  | .index target _ _ _ => target.place
  | .slice target _ _ _ _ _ => target.place
  | .assertion target _ _ _ => target.place
  | .call callee _ _ _ _ => callee.place
  | .star place _ => place
  | .unary place _ _ => place
  | .binary left _ _ _ => left.place
  | .pair key _ _ => key.place
  | .array place _ _ => place
  | .ellipsis place _ => place
  | .record place _ => place
  | .function place _ => place
  | .interface place _ => place
  | .table place _ _ => place
  | .channel place _ _ _ => place

def endLine : Term → Nat
  | .absent => 0
  | .name label => label.place.line
  | .literal place _ text => place.line + text.toList.count '\n'
  | .composite _ _ _ closing => closing.line
  | .closure _ _ body => body.closing.line
  | .paren _ _ closing => closing.line
  | .select _ member => member.place.line
  | .index _ _ _ closing => closing.line
  | .slice _ _ _ _ _ closing => closing.line
  | .assertion _ _ _ closing => closing.line
  | .call _ _ _ _ closing => closing.line
  | .star _ inner => inner.endLine
  | .unary _ _ inner => inner.endLine
  | .binary _ _ _ right => right.endLine
  | .pair _ _ value => value.endLine
  | .array _ _ element => element.endLine
  | .ellipsis place .absent => place.line
  | .ellipsis _ element => element.endLine
  | .record _ fields => fields.closing.line
  | .function _ signature => signature.endLine
  | .interface _ fields => fields.closing.line
  | .table _ _ value => value.endLine
  | .channel _ _ _ element => element.endLine

def unwrapped : Term → Term
  | .paren _ inner _ => inner.unwrapped
  | term => term

def isAbsent : Term → Bool
  | .absent => true
  | _ => false

end Term

namespace Field

def labels : Field → List Label
  | .mk labels _ _ _ => labels

def type : Field → Term
  | .mk _ type _ _ => type

def place (f : Field) : Place :=
  match f.labels with
  | label :: _ => label.place
  | [] => f.type.place

end Field

namespace Item

def place : Item → Place
  | .group place _ _ _ _ _ => place
  | .function place _ _ _ _ _ _ => place

def keyword : Item → String
  | .group _ keyword _ _ _ _ => keyword
  | .function .. => "func"

def hasLead : Item → Bool
  | .group _ _ _ _ _ hasLead => hasLead
  | .function _ _ _ _ _ _ hasLead => hasLead

end Item

namespace Statement

def place : Statement → Place
  | .absent => .unknown
  | .empty place => place
  | .expression term => term.place
  | .send channel _ _ => channel.place
  | .step term _ _ => term.place
  | .assign targets place _ _ => (targets.head?.map Term.place).getD place
  | .spawn place _ _ => place
  | .giveBack place _ => place
  | .jump place _ _ => place
  | .block inner => inner.opening
  | .labeled label _ _ => label.place
  | .declare item => item.place
  | .choice place _ _ _ _ => place
  | .switch place _ _ _ => place
  | .typeSwitch place _ _ _ => place
  | .select place _ => place
  | .clause place _ _ _ => place
  | .transfer place _ _ _ => place
  | .loop place _ _ _ _ => place
  | .range place _ _ _ _ _ _ => place

end Statement

-- A file: its package, its declarations, its comments in groups, and the number of its pieces.
structure File where
  place : Place
  package : Label
  items : List Item
  notes : List (List Note)
  weight : Nat

end LineBasic.Declaration
