/-!
# Statements of the graph database

Every statement that is sent to the graph database, with its text. A statement of which only the
text is known is one of these if it has the same text.
-/

namespace Playbook

inductive Statement where
  /-- Requires the ids of problems to be unique. -/
  | uniqueProblems
  /-- Requires the keys of steps to be unique. -/
  | uniqueSteps
  | showConstraints
  | problemByType
  | firstStep
  | candidates
  | allProblems
  | latestProblem
  | mergeProblem
  | updateProblem
  | mergeStep
  | countProblem
  | countStep
  | createFirst
  | createDefault
  | createGuarded
  | deleteNode
  | deleteRelation
  | deleteProblem
  | clear
  | stepsOfProblem
  | nodes
  | edges
  | other (text : String)
deriving DecidableEq

namespace Statement

/-- Lines, each ended by a line feed. -/
def lines (text : List String) : String :=
  String.join (text.map (· ++ "\n"))

/-- The columns of a step in an answer. -/
def stepColumns : List String :=
  ["       s.problem_id AS problemId, s.step_id AS stepId, s.operation AS operation,",
    "       s.system_a AS system, s.table_name AS tableName, s.field AS field,",
    "       s.condition_sql AS conditionSql, s.reply_content AS replyContent"]

/-- The text of a relation that is created between two steps. -/
def createNext (relation : String) : String :=
  lines ["",
    "MATCH (s1:Step \x7bproblem_id: $problemId, step_id: $fromStepId\x7d)",
    "MATCH (s2:Step \x7bproblem_id: $problemId, step_id: $toStepId\x7d)",
    s!"MERGE (s1)-[r:{relation}]->(s2)",
    "RETURN elementId(r) AS relationId"]

/-- The lines that set the fields of a problem and answer its id. -/
def setProblem : List String :=
  ["SET p.problem_type = $problemType, p.description = $description, p.is_active = $isActive",
    "RETURN p.problem_id AS problemId"]

def text : Statement → String
  | uniqueProblems =>
    "CREATE CONSTRAINT problem_id_unique IF NOT EXISTS " ++
      "FOR (p:Problem) REQUIRE p.problem_id IS UNIQUE"
  | uniqueSteps =>
    "CREATE CONSTRAINT step_key_unique IF NOT EXISTS " ++
      "FOR (s:Step) REQUIRE (s.problem_id, s.step_id) IS UNIQUE"
  | showConstraints =>
    lines ["", "SHOW CONSTRAINTS YIELD name, labelsOrTypes, properties",
      "RETURN name, labelsOrTypes, properties"]
  | problemByType =>
    lines ["", "MATCH (p:Problem \x7bproblem_type: $problemType\x7d)",
      "WHERE coalesce(p.is_active, true)", "RETURN p.problem_id AS problemId",
      "ORDER BY p.problem_id", "LIMIT 1"]
  | firstStep =>
    lines (["",
      "MATCH (p:Problem \x7bproblem_id: $problemId\x7d)-[:FIRST_STEP]->(s:Step)", "RETURN"]
      ++ stepColumns ++ ["", "LIMIT 1"])
  | candidates =>
    lines (["", "MATCH (cur:Step \x7bproblem_id: $problemId, step_id: $stepId\x7d)" ++
      "-[r:NEXT_DEFAULT|NEXT_IF]->(s:Step)",
      "RETURN type(r) AS relationType, r.condition AS condition,"] ++ stepColumns)
  | allProblems =>
    lines ["", "MATCH (p:Problem)",
      "RETURN p.problem_id AS problemId, p.problem_type AS problemType,",
      "       p.description AS description, coalesce(p.is_active, true) AS isActive",
      "ORDER BY p.problem_id"]
  | latestProblem =>
    lines ["", "MATCH (p:Problem)", "WHERE p.problem_type = $problemType",
      "RETURN p.problem_id AS problemId", "ORDER BY p.problem_id DESC", "LIMIT 1"]
  | mergeProblem =>
    lines (["", "MERGE (p:Problem \x7bproblem_id: $problemId\x7d)"] ++ setProblem)
  | updateProblem =>
    lines (["", "MATCH (p:Problem \x7bproblem_id: $problemId\x7d)"] ++ setProblem)
  | mergeStep =>
    lines ["", "MERGE (s:Step \x7bproblem_id: $problemId, step_id: $stepId\x7d)",
      "SET s.operation = $operation, s += $properties", "RETURN s.step_id AS stepId"]
  | countProblem =>
    lines ["", "MATCH (p:Problem \x7bproblem_id: $problemId\x7d)", "RETURN count(p) AS count"]
  | countStep =>
    lines ["", "MATCH (s:Step \x7bproblem_id: $problemId, step_id: $stepId\x7d)",
      "RETURN count(s) AS count"]
  | createFirst =>
    lines ["", "MATCH (p:Problem \x7bproblem_id: $problemId\x7d)",
      "MATCH (s:Step \x7bproblem_id: $problemId, step_id: $toStepId\x7d)",
      "MERGE (p)-[r:FIRST_STEP]->(s)", "RETURN elementId(r) AS relationId"]
  | createDefault => createNext "NEXT_DEFAULT"
  | createGuarded => createNext "NEXT_IF \x7bcondition: $condition\x7d"
  | deleteNode =>
    lines ["", "MATCH (n) WHERE elementId(n) = $elementId", "DETACH DELETE n",
      "RETURN count(*) AS deleted"]
  | deleteRelation =>
    lines ["", "MATCH ()-[r]->() WHERE elementId(r) = $elementId", "DELETE r",
      "RETURN count(*) AS deleted"]
  | deleteProblem =>
    lines ["", "MATCH (p:Problem \x7bproblem_id: $problemId\x7d)",
      "OPTIONAL MATCH (s:Step \x7bproblem_id: $problemId\x7d)", "DETACH DELETE p, s",
      "RETURN count(*) AS deleted"]
  | clear => lines ["", "MATCH (n)", "DETACH DELETE n"]
  | stepsOfProblem =>
    lines (["", "MATCH (s:Step \x7bproblem_id: $problemId\x7d)",
      "RETURN elementId(s) AS elementId,"]
      ++ stepColumns ++ ["", "ORDER BY s.step_id"])
  | nodes =>
    lines ["", "MATCH (n)",
      "RETURN elementId(n) AS id, labels(n)[0] AS nodeType, properties(n) AS properties"]
  | edges =>
    lines ["", "MATCH (a)-[r]->(b)",
      "RETURN elementId(r) AS id, elementId(a) AS source, elementId(b) AS target,",
      "       type(r) AS relationLabel, properties(r) AS properties"]
  | other text => text

/-- The statements that set the graph database up, in order. -/
def constraints : List Statement := [uniqueProblems, uniqueSteps]

/-- Every statement that has a text of its own. -/
def known : List Statement :=
  [uniqueProblems, uniqueSteps, showConstraints, problemByType, firstStep, candidates, allProblems,
    latestProblem, mergeProblem, updateProblem, mergeStep, countProblem, countStep, createFirst,
    createDefault, createGuarded, deleteNode, deleteRelation, deleteProblem, clear, stepsOfProblem,
    nodes, edges]

/-- The statement with a text. -/
def ofText (text : String) : Statement :=
  (known.find? fun s => s.text = text).getD (other text)

end Statement

end Playbook
