import Playbook.Turtle.Term
/-!
# Statements

A statement relates a subject to an object by a predicate. A list of statements is kept in the order
in which they were first made, and a statement that is made again changes nothing. Questions that
range over two parts of a statement are answered in groups.
-/

namespace Playbook.Turtle

structure Triple where
  subject : Term
  predicate : Term
  object : Term
deriving DecidableEq, Inhabited

abbrev Triples := List Triple

/-- The items in groups of one key each, in the order of the first item of each group. -/
def grouped {α κ : Type} [DecidableEq κ] (key : α → κ) (items : List α) : List α :=
  (items.map key).eraseDups.flatMap fun k => items.filter fun a => key a = k

namespace Triples

/-- Adds a statement unless it is there. -/
def add (triples : Triples) (triple : Triple) : Triples :=
  if triple ∈ triples then triples else triples ++ [triple]

/-- The subjects of a class. -/
def members (triples : Triples) (object : Term) : List Term :=
  (triples.filter fun t => t.predicate = typeTerm && t.object = object).map Triple.subject

/-- The first object of a subject under a predicate. -/
def object? (triples : Triples) (subject predicate : Term) : Option Term :=
  (triples.find? fun t => t.subject = subject && t.predicate = predicate).map Triple.object

/-- What is stated of a subject, grouped by predicate. -/
def about (triples : Triples) (subject : Term) : List (Term × Term) :=
  (grouped Triple.predicate (triples.filter fun t => t.subject = subject)).map fun t =>
    (t.predicate, t.object)

/-- The subjects and objects of a predicate, grouped by object. -/
def pairs (triples : Triples) (predicate : Term) : List (Term × Term) :=
  (grouped Triple.object (triples.filter fun t => t.predicate = predicate)).map fun t =>
    (t.subject, t.object)

end Triples

end Playbook.Turtle
