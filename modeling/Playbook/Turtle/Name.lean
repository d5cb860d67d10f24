import Playbook.Text.Search
/-!
# Local names

The local name of a resource is what follows the last `#` of its name, or the last `/` when there
is no `#`.
-/

namespace Playbook.Turtle

def localName (name : String) : String :=
  let chars := name.toList
  String.ofList (Text.afterLast (if chars.contains '#' then '#' else '/') chars)

/-- What the names of this ontology start with. -/
def ontology : String := "http://kgflow.local/ontology/solution#"

end Playbook.Turtle
