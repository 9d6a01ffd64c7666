import LineBasic.Proofs.NodeFamily.Definition

namespace LineBasic

namespace Text

end Text

namespace NodeFamily

@[ext]
structure Declared where
  heading : Bytes
  lines : List Bytes

def Declared.text (d : Declared) : Bytes :=
  d.heading ++ Bytes.ofString " \x7b\n" ++ d.lines.flatMap (fun line => 9 :: line ++ [10]) ++
    Bytes.ofString "\x7d\n\n"

-- The declarations that the lines of a text list. A declaration goes on to the first line that is not
-- indented, which is its closing brace, and an empty line follows.
inductive Lists : List Bytes → List Declared → Prop where
  | nil : Lists [[]] []
  | cons {d : Declared} {rest : List Bytes} {ds : List Declared} (h : Lists rest ds) :
      Lists ((d.heading ++ Bytes.ofString " \x7b") ::
        (d.lines.map (9 :: ·) ++ Bytes.ofString "\x7d" :: [] :: rest)) (d :: ds)

-- The first line that is not indented can be told from those before it.
theorem indented_inj {lines lines' rest rest' : List Bytes} {last : Bytes}
    (hlast : last.head? ≠ some 9)
    (h : lines.map (9 :: ·) ++ last :: rest = lines'.map (9 :: ·) ++ last :: rest') :
    lines = lines' ∧ rest = rest' := by
  induction lines generalizing lines' with
  | nil =>
    cases lines' with
    | nil => exact ⟨rfl, (List.cons.inj h).2⟩
    | cons line lines' =>
      rw [(List.cons.inj h).1] at hlast
      exact (hlast rfl).elim
  | cons line lines ih =>
    cases lines' with
    | nil =>
      rw [← (List.cons.inj h).1] at hlast
      exact (hlast rfl).elim
    | cons line' lines' =>
      obtain ⟨hline, htail⟩ := List.cons.inj h
      obtain ⟨rfl, rfl⟩ := ih htail
      rw [(List.cons.inj hline).2]
      exact ⟨rfl, rfl⟩

theorem Lists.unique {lines : List Bytes} {ds ds' : List Declared} (h : Lists lines ds)
    (h' : Lists lines ds') : ds = ds' := by
  induction h generalizing ds' with
  | nil =>
    generalize hlines : ([[]] : List Bytes) = lines at h'
    cases h' with
    | nil => rfl
    | @cons d rest ds h =>
      have hheading := (List.cons.inj hlines).1
      exact (List.append_ne_nil_of_right_ne_nil _ (by decide) hheading.symm).elim
  | @cons d rest ds h ih =>
    generalize hlines : (d.heading ++ Bytes.ofString " \x7b") ::
      (d.lines.map (9 :: ·) ++ Bytes.ofString "\x7d" :: [] :: rest) = lines at h'
    cases h' with
    | nil =>
      have hheading := (List.cons.inj hlines).1
      exact (List.append_ne_nil_of_right_ne_nil _ (by decide) hheading).elim
    | @cons d' rest' ds' h' =>
      obtain ⟨hheading, hbody⟩ := List.cons.inj hlines
      obtain ⟨hinside, hrest⟩ := indented_inj (by decide) hbody
      obtain rfl := (List.cons.inj hrest).2
      rw [Declared.ext (List.append_cancel_right hheading) hinside, ih h']

def contract (f : NodeFamily) : Declared where
  heading := Bytes.ofString "type " ++ f.interfaceName ++ Bytes.ofString " interface"
  lines := [Bytes.ofString "accept(" ++ f.visitorName ++ Bytes.ofString ") (R, error)"]

-- The declaration of the interface of visitors: one method for each kind of node, which takes its
-- record.
def visitor (f : NodeFamily) (nodes : List Node) : Declared where
  heading := Bytes.ofString "type " ++ f.visitorName ++ Bytes.ofString " interface"
  lines := nodes.map fun node =>
    f.methodName node.name ++ Bytes.ofString "(" ++ f.interfaceName ++ Bytes.ofString " *" ++
      f.recordName node.name ++ Bytes.ofString ") (R, error)"

def record (f : NodeFamily) (node : Node) : Declared where
  heading := Bytes.ofString "type " ++ f.recordName node.name ++ Bytes.ofString " struct"
  lines := node.fields

-- The declaration of the method of a record that calls the method of a visitor for it.
def acceptance (f : NodeFamily) (node : Node) : Declared where
  heading := Bytes.ofString "func (s *" ++ f.recordName node.name ++
    Bytes.ofString ") accept(visitor " ++ f.visitorName ++ Bytes.ofString ") (R, error)"
  lines := [Bytes.ofString "return visitor." ++ f.methodName node.name ++ Bytes.ofString "(s)"]

def declared (f : NodeFamily) (nodes : List Node) : List Declared :=
  f.contract :: f.visitor nodes :: nodes.flatMap fun node => [f.record node, f.acceptance node]

variable {f : NodeFamily} {definition : Bytes} {definitions : List Bytes} {node : Node}
  {nodes : List Node}

end NodeFamily

end LineBasic
