import Playbook.Text.Integer
import Playbook.Text.Quoted
/-!
# Faults

What can go wrong, by cause. Each fault has a kind, which decides how callers treat it, and a
message. Faults of the first nine kinds come from walking a playbook; the others are refused
arguments, services that are not there, and data that cannot be read. A fault that tells of a step
holds its number as it was written: a number of too many digits cannot be (`shownNumber`), and
whoever tries meets that fault and no other.
-/

namespace Playbook

/-- The kinds of faults. -/
inductive Kind where
  | general
  | notFound
  | missingVariable
  | noNextStep
  | noSatisfiedBranch
  | stepLimitExceeded
  | lookupFailed
  | storageFailed
  | invalidValue
  | refusedArgument
  | unavailable
  | unreadable
  | overflow
  | invalidOperation
  | missingEntry
  | wrongType
  | missingOperation
  | malformedJson
  | missingFile
  | missingTable
  | malformedTurtle
deriving DecidableEq, Inhabited

/-- The reason that an interrupted walk states for a fault. Kinds that a walk does not foresee are
system errors. -/
def Kind.reason : Kind → String
  | .general => "error"
  | .notFound => "not found"
  | .missingVariable => "render failure"
  | .noNextStep => "no next step"
  | .noSatisfiedBranch => "no satisfied branch"
  | .stepLimitExceeded => "step limit exceeded"
  | .lookupFailed => "external query failure"
  | .storageFailed => "storage failure"
  | .invalidValue => "invalid context value"
  | _ => "system error"

/-- What is wrong with a relation. -/
inductive Defect where
  | unknownType (relationType : Option String)
  | noSource
  | noCondition
deriving DecidableEq

/-- An unset text is shown as `None`. -/
def shownText (text : Option String) : String :=
  text.getD "None"

def Defect.message : Defect → String
  | .unknownType relationType => s!"지원하지 않는 관계 타입: {shownText relationType}"
  | .noSource => "from_step_id 없음"
  | .noCondition => "NEXT_IF 관계에 condition 없음"

/-- What went wrong. -/
inductive Fault where
  /-- A problem has no first step. -/
  | noFirstStep (problem : Option String)
  /-- No active problem has the type that an intent names. -/
  | noProblemFor (intent : Option String)
  /-- A template names a variable without a value. -/
  | missingVariable (name : String)
  /-- A step that is no reply has no relation to a next step. -/
  | noNextStep (step : String)
  /-- None of the relations to a next step applies. -/
  | noSatisfiedBranch (step : String)
  | stepLimitExceeded (problem : Option String) (limit : Nat)
  /-- A lookup names no registered system, and there is no default. -/
  | unknownSystem (system : Option String)
  | lookupFailed (text : String)
  | storageFailed (text : String)
  /-- A value of this type is no context value. -/
  | unsupportedValue (typeName : String)
  | problemWithoutId
  | invalidRelation (defects : List Defect)
  | unknownProblem (problem : Option String)
  | unknownStep (problem : Option String) (step : String)
  | limitBelowOne
  | unknownBackend (name : String)
  | remoteStoreWithoutClient
  | remoteStoreWithoutAddress
  | noDatabase
  | noApiKey
  /-- An outside service answered with a failure. -/
  | unavailable (text : String)
  /-- An integer has more digits than can be written. -/
  | integerTooLong
  /-- A text is not the number, or a list not the mapping, that is needed. -/
  | unreadable (text : String)
  /-- A number is too large for the type it is turned into. -/
  | overflow (text : String)
  /-- A number is calculated with that refuses it. -/
  | invalidOperation
  /-- A mapping lacks an entry. -/
  | missingEntry (text : String)
  | wrongType (text : String)
  /-- A value is used in a way that its type does not allow, as a mapping when it is none. -/
  | missingOperation (text : String)
  | malformedJson (text : String)
  | missingFile (path : String)
  | missingTable (text : String)
  | malformedTurtle
  /-- A service reports a fault of a kind of its own choice. -/
  | reported (kind : Kind) (text : String)
deriving DecidableEq

namespace Fault

def kind : Fault → Kind
  | noFirstStep _ | noProblemFor _ => .notFound
  | missingVariable _ => .missingVariable
  | noNextStep _ => .noNextStep
  | noSatisfiedBranch _ => .noSatisfiedBranch
  | stepLimitExceeded .. => .stepLimitExceeded
  | unknownSystem _ | lookupFailed _ => .lookupFailed
  | storageFailed _ => .storageFailed
  | unsupportedValue _ => .invalidValue
  | problemWithoutId | invalidRelation _ | unknownProblem _ | unknownStep .. | limitBelowOne
  | unknownBackend _ | remoteStoreWithoutClient | remoteStoreWithoutAddress => .refusedArgument
  | noDatabase | noApiKey | unavailable _ => .unavailable
  | integerTooLong | unreadable _ => .unreadable
  | overflow _ => .overflow
  | invalidOperation => .invalidOperation
  | missingEntry _ => .missingEntry
  | wrongType _ => .wrongType
  | missingOperation _ => .missingOperation
  | malformedJson _ => .malformedJson
  | missingFile _ => .missingFile
  | missingTable _ => .missingTable
  | malformedTurtle => .malformedTurtle
  | reported kind _ => kind

/-- What is said of too many digits in an integer, and in which. -/
def digitLimitMessage (what : String) : String :=
  s!"Exceeds the limit ({Text.digitLimit.repr} digits) for integer string conversion{what}; " ++
    "use sys.set_int_max_str_digits() to increase the limit"

def message : Fault → String
  | noFirstStep problem => s!"Problem {shownText problem}의 첫 Step 없음"
  | noProblemFor intent => s!"의도 {shownText intent}에 해당하는 Problem 없음"
  | missingVariable name => s!"找不到变量: {name}"
  | noNextStep step => s!"Step {step}의 후속 Step 없음"
  | noSatisfiedBranch step => s!"Step {step}: 조건을 만족하는 다음 Step 없음"
  | stepLimitExceeded problem limit => s!"{shownText problem}: {limit.repr} Step 초과"
  | unknownSystem system => s!"등록된 데이터 시스템 없음: {shownText system}"
  | unsupportedValue typeName => s!"지원하지 않는 Context 값 타입: {typeName}"
  | problemWithoutId => "problem_id 필요"
  | invalidRelation defects => String.intercalate "; " (defects.map Defect.message)
  | unknownProblem problem => s!"Problem 없음: {shownText problem}"
  | unknownStep problem step => s!"Step 없음: {shownText problem}/{step}"
  | limitBelowOne => "max_steps 는 1 이상이어야 합니다"
  | unknownBackend name => s!"지원하지 않는 백엔드: {name}"
  | remoteStoreWithoutClient => "redis 백엔드는 redis_url 또는 client가 필요합니다"
  | remoteStoreWithoutAddress => "redis 백엔드는 redis_url이 필요합니다"
  | noDatabase => "Neo4j 드라이버가 초기화되지 않음"
  | noApiKey => "OPENAI_API_KEY 가 설정되지 않음"
  | integerTooLong => digitLimitMessage ""
  | invalidOperation => "[<class 'decimal.InvalidOperation'>]"
  | missingFile path => s!"[Errno 2] No such file or directory: {Text.quoted path}"
  | malformedTurtle => "malformed document"
  | lookupFailed text | storageFailed text | unavailable text | unreadable text | overflow text
  | missingEntry text | wrongType text | missingOperation text | malformedJson text
  | missingTable text | reported _ text => text

end Fault

/-- The text of a number, which is `None` if it is unset; one of too many digits has none. -/
def shownNumber : Option Int → Except Fault String
  | some i =>
    match Text.printInteger? i with
    | some s => .ok s
    | none => .error .integerTooLong
  | none => .ok "None"

theorem shownNumber_of_isSome {i : Int} (h : (Text.printInteger? i).isSome = true) :
    shownNumber (some i) = .ok (Text.integerText i) := by
  have hp := Text.printInteger?_of_isSome h
  unfold shownNumber
  simp only [hp]

theorem shownNumber_of_not_isSome {i : Int} (h : ¬ (Text.printInteger? i).isSome = true) :
    shownNumber (some i) = .error .integerTooLong := by
  have hp := Option.not_isSome_iff_eq_none.1 h
  unfold shownNumber
  simp only [hp]

theorem shownNumber_error {i : Option Int} {f : Fault} (h : shownNumber i = .error f) :
    f = .integerTooLong := by
  unfold shownNumber at h
  split at h
  · split at h <;> cases h
    rfl
  · cases h

end Playbook
