import Playbook.Command
import Playbook.Construction.Ingest
import Playbook.Dialogue.Session
import Playbook.Service
/-!
# Carrying commands out

A command prints, changes the world, and ends by itself, with a code or at a fault. What was printed
before a fault stays printed.
-/

namespace Playbook

/-- How a command ends when it does not end by itself. -/
inductive Exit where
  | code (n : Nat)
  | failed (fault : Fault)
deriving DecidableEq

/-- The world and what was printed. -/
structure ShellState where
  world : World
  printed : String

abbrev Shell := ExceptT Exit (StateM ShellState)

namespace Shell

def write (text : String) : Shell Unit :=
  modify fun s => { s with printed := s.printed ++ text }

def writeLine (line : String) : Shell Unit := write (line ++ "\n")

def exit {α : Type} (code : Nat) : Shell α := throw (.code code)

/-- A result, or the end of the command at a fault. -/
def lift {α : Type} : Except Fault α → Shell α
  | .ok a => pure a
  | .error f => throw (.failed f)

/-- Changes the world. -/
def change {α : Type} (f : World → α × World) : Shell α :=
  modifyGet fun s =>
    let (a, world) := f s.world
    (a, { s with world := world })

/-- Changes the world and may fail. -/
def attempt {α : Type} (f : Attempt World α) : Shell α := do lift (← change f)

/-- Uses the service that the environment describes, and closes it in the end. -/
def withService {α : Type} (mode : String) (use : Service → Shell α) : Shell α := do
  let service ← lift (Service.start mode (← get).world)
  let outcome ← try (Except.ok <$> use service) catch e => pure (.error e)
  attempt service.close
  match outcome with
  | .ok a => return a
  | .error e => throw e

section Marks

/-- The mark of what is as it should be, or not. -/
def mark (good : Bool) : String := if good then "✅" else "❌"

/-- The mark of what is as it should be, or has to be looked at. -/
def notice (good : Bool) : String := if good then "✅" else "⚠️"

end Marks

section Writing

def constrain (mode : String) : Shell Unit := do
  writeLine s!"🔧 Neo4j 스키마 설정 중... (DB: {mode})"
  let done ← withService mode fun service => do
    attempt service.ensureConstraints
    attempt service.checkConstraints
  let text := if done then "스키마 설정 완료" else "스키마 제약이 일부 없음"
  writeLine s!"{notice done} {text}"

/-- Prints what was written. -/
def showTally (tally : Tally) : Shell Unit := do
  writeLine "✅ 적재 완료:"
  tally.listing.forM fun (name, n) => writeLine s!"  - {name}: {n.repr}"

/-- Audits the playbook and prints whether it passes. -/
def showVerdict (service : Service) : Shell Unit := do
  let passed ← attempt service.verdict
  let text := if passed then "그래프 검증 통과" else "그래프 검증 실패 (로그 확인)"
  writeLine s!"{notice passed} {text}"

def fileAddress : String := "sqlite:///"

/-- The tables at an address. A file that is not there is created, without tables. -/
def openTables (address : String) (world : World) : SeedTables × World :=
  if address.startsWith fileAddress then
    let path := String.ofList (address.toList.drop fileAddress.length)
    match world.tables.get? (world.disk.locate path) with
    | some tables => (tables, world)
    | none =>
      if world.disk.isThere path then (.empty, world)
      else (.empty, world.withDisk ((world.disk.write path "").toOption.getD world.disk))
  else (.empty, world)

def seed (mode address : String) (clear audited : Bool) : Shell Unit := do
  writeLine s!"🌱 Problem 정의 적재 중: {address} (DB: {mode})"
  withService mode fun service => do
    if clear then
      let _ ← change (service.build Builder.clear)
    let tables ← change (openTables address)
    showTally (← attempt (service.build fun b => b.seed tables))
    if audited then showVerdict service

def ingest (mode path : String) (audited : Bool) : Shell Unit := do
  let disk := (← get).world.disk
  if !disk.isThere path then
    writeLine s!"❌ 파일을 찾을 수 없습니다: {path}"
    exit 1
  writeLine s!"📥 TTL 파일 적재 중: {path} (DB: {mode})"
  withService mode fun service => do
    let text ← lift (disk.read path)
    showTally (← attempt (service.build fun b => b.ingestText ("file://" ++ path) text))
    if audited then showVerdict service

end Writing

section Reading

def showReport (report : Report) : Shell Unit := do
  let name := s!"{shownText report.problem} ({shownText report.type})"
  writeLine s!"  {mark report.valid} {name}: 종료 Step {report.ends.length.repr}개"
  report.issues.forM fun issue => writeLine s!"      - {issue.message}"

def audit (mode : String) : Shell Unit := do
  let reports ← withService mode fun service => attempt service.reports
  if reports.isEmpty then
    writeLine "⚠️ Problem 이 없습니다."
    exit 1
  reports.values.forM showReport
  if !reports.values.all Report.valid then exit 1

/-- The most rows that are printed. -/
def shownRows : Nat := 20

def query (mode statement : String) : Shell Unit := do
  let rows ← withService mode fun service => attempt (service.query (.ofText statement) [])
  writeLine s!"\n📊 Results ({rows.length.repr} rows):"
  (rows.take shownRows).forM fun row => do
    let listing ← lift (Datum.dict row.entries).listing
    writeLine s!"  {listing}"
  if rows.length > shownRows then
    writeLine s!"  ... and {(rows.length - shownRows).repr} more rows"

def health (mode : String) : Shell Unit := do
  writeLine s!"🏥 연결 상태 확인 중... (DB: {mode})"
  let found ← withService mode fun service => return service.health (← get).world
  found.entries.forM fun (name, d) => do
    match d with
    | .plain (.bool good) =>
      let text := if good then "OK" else "Failed"
      writeLine s!"  {mark good} {name}: {text}"
    | d =>
      let text ← lift d.write
      writeLine s!"  📊 {name}: {text}"

end Reading

section Answering

def turn (mode user question : String) : Shell Unit := do
  let (response, context) ← withService mode fun service => attempt (service.turn user question)
  writeLine s!"\n👤 User: {question}"
  writeLine s!"🤖 Bot: {response}"
  let listing ← lift context.listing
  writeLine s!"\n📝 Context: {listing}"

/-- Answers the lines of an input. -/
def talk (mode user input : String) : Shell Unit := do
  writeLine s!"🚀 KGFlow REPL 시작 (사용자: {user})"
  writeLine s!"🗄️  Neo4j: {mode.map Char.toUpper} 모드"
  writeLine "종료하려면 'quit' 또는 'exit'를 입력하세요.\n"
  withService mode fun service => do
    let assistant ← attempt service.assistant
    let (events, stopped) ← change fun world =>
      let (events, stopped, s) :=
        Session.run assistant user (Session.lines input) world.dialogue
      ((events, stopped), world.after s)
    write (Session.transcript events stopped)

def forget (mode user : String) : Shell Unit := do
  withService mode fun service => do
    let choice ← attempt service.openContexts
    attempt fun world =>
      let (r, contexts) := choice.source.clear user world.contexts
      (r, { world with contexts := contexts })
  writeLine s!"🗑️ {user} context 삭제 완료"

end Answering

/-- Carries a command out. A user without a name is a guest. -/
def perform (guest input mode : String) : Command → Shell Unit
  | .constrain => constrain mode
  | .seed address clear audited => seed mode address clear audited
  | .ingest path audited => ingest mode path audited
  | .audit => audit mode
  | .turn user question => turn mode user question
  | .talk user => talk mode (user.getD guest) input
  | .forget user => forget mode user
  | .health => health mode
  | .query statement => query mode statement

/-- Carries a command line out. -/
def performLine (guest input : String) (texts : List String) : Shell Unit := do
  match Invocation.read texts with
  | .error .helped =>
    write Command.usage
    exit 0
  | .error .refused => exit 2
  | .ok none =>
    write Command.usage
    exit 1
  | .ok (some invocation) => perform guest input invocation.mode invocation.command

/-- How a command line ends, with what it prints and the world after it. -/
def runLine (guest input : String) (texts : List String) (world : World) :
    Except Exit Unit × ShellState :=
  (performLine guest input texts).run.run ⟨world, ""⟩

end Shell

end Playbook
