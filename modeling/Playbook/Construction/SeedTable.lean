/-!
# Tables that seed a playbook

The columns of the tables of a relational database that state problems, steps and relations, and
the statements that read them.
-/

namespace Playbook.SeedTable

/-- Active problems in the order of their rows. -/
def activeProblems : String :=
  "\nSELECT problem_id, problem_type, description, is_active\nFROM problem_definitions\n" ++
    "WHERE is_active = 1\nORDER BY id\n"

/-- The steps of a problem in the order of their numbers. -/
def stepsOfProblem : String :=
  "\nSELECT problem_id, step_id, operation, system_a, table_name, field,\n" ++
    "       condition_sql, reply_content\nFROM solution_steps\nWHERE problem_id = :problem_id\n" ++
    "ORDER BY step_id\n"

/-- The relations of a problem in the order of their rows. -/
def relationsOfProblem : String :=
  "\nSELECT problem_id, from_step_id, to_step_id, relation_type, condition_expression\n" ++
    "FROM step_relations\nWHERE problem_id = :problem_id\nORDER BY id\n"

/-- The columns of the three tables. -/
def problemColumns : List String :=
  ["id", "problem_id", "problem_type", "description", "is_active"]

def stepColumns : List String :=
  ["id", "problem_id", "step_id", "operation", "system_a", "table_name", "field", "condition_sql",
    "reply_content"]

def relationColumns : List String :=
  ["id", "problem_id", "from_step_id", "to_step_id", "relation_type", "condition_expression"]

end Playbook.SeedTable
