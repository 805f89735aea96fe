import DogBot.Exec.Grants
import DogBot.Session.Store

/-! # The Docker runner

A run loads the session of its conversation and executes Claude in the
container, with `--session-id` if the session is new and with `--resume`
otherwise. If Claude does not know a session that is resumed, the session is
reset and Claude is executed a second time.
-/

namespace DogBot

/-- The token that a run reads the history with. -/
structure HistoryReadGrantToken where
  token : String
  databaseUrl : String
  deriving DecidableEq, Repr

/-- What a run asks of the session store, the container runtime, the history store and the clock.
An error of the runtime or the history store is given by its text. -/
inductive ExecOp
  | session (op : SessionOp)
  | ensureContainerRunning (containerName : String)
  | createReadGrants (grants : List HistoryReadGrant)
  | createClaudeExec (containerName cwd : String) (command env : List String)
  | collectExecOutput (execId : String)
  | instantNow

abbrev ExecOp.Result : ExecOp → Type
  | session op => op.Result
  | ensureContainerRunning _ => Except String Unit
  | createReadGrants _ => Except String HistoryReadGrantToken
  | createClaudeExec _ _ _ _ => Except String String
  | collectExecOutput _ => Except String (String × String × ℤ)
  | instantNow => ℕ

abbrev ExecM (α : Type) := Program ExecOp ExecOp.Result ErrorResponse α

structure DockerRunner where
  containerName : String
  settings : Settings

def RunResponse.withDuration (response : RunResponse) (durationMs : ℕ) : RunResponse :=
  { response with durationMs }

def looksLikeMissingSession (text : String) : Bool :=
  Text.contains "No conversation found with session ID:" text

def shouldRetryWithFreshSession (response : RunResponse) (isNewSession : Bool) : Bool :=
  if isNewSession || response.timedOut then false
  else looksLikeMissingSession (Text.trim response.stdout) ||
    looksLikeMissingSession (Text.trim response.stderr)

def buildClaudeCommand (prompt systemPrompt claudeSessionId : String) (isNewSession : Bool) :
    List String :=
  ["claude", "--print", "--dangerously-skip-permissions", "--append-system-prompt", systemPrompt,
    "--add-dir", "/workspace", "/state/claude-prompt",
    if isNewSession then "--session-id" else "--resume", claudeSessionId, prompt]

def historyExecEnv (token : HistoryReadGrantToken) : List String :=
  ["DOGBOT_HISTORY_DATABASE_URL=" ++ token.databaseUrl,
    "DOGBOT_HISTORY_RUN_TOKEN=" ++ token.token,
    "PGOPTIONS=-c dogbot.run_token=" ++ token.token ++ " -c statement_timeout=5000"]

def mapSessionStoreError (err : SessionStoreError) : ErrorResponse where
  status := "error"
  errorCode := if err.isConflict then "session_conflict" else "session_store_failed"
  message := err.message
  timedOut := false

/-- A program of the session store as a part of a run. -/
def runStore {α : Type} (program : StoreM α) : ExecM α :=
  program.hoist .session (fun _ answer => answer) mapSessionStoreError

/-- Report the error of an operation under a code. -/
def mapErr {α : Type} (errorCode : String) : Except String α → ExecM α
  | .ok a => .ret a
  | .error message => .fail { status := "error", errorCode, message, timedOut := false }

namespace DockerRunner

def createHistoryReadToken (runner : DockerRunner) (request : RunRequest) :
    ExecM HistoryReadGrantToken :=
  .call (.createReadGrants (historyReadGrantsForRequest runner.settings request))
    (mapErr "history_grant_failed")

def executeOnce (runner : DockerRunner) (request : RunRequest) (validated : ValidatedRunRequest)
    (session : SessionRecord) : ExecM RunResponse := do
  let historyToken ← runner.createHistoryReadToken request
  let execId ← .call
    (.createClaudeExec runner.containerName validated.cwd
      (buildClaudeCommand validated.prompt validated.systemPrompt session.claudeSessionId
        session.isNew)
      (historyExecEnv historyToken))
    (mapErr "exec_create_failed")
  let (stdout, stderr, exitCode) ← .call (.collectExecOutput execId) (mapErr "exec_failed")
  return { status := "ok", stdout, stderr, exitCode, timedOut := false, durationMs := 0 }

def instantNow : ExecM ℕ := .call .instantNow .ret

def execute (runner : DockerRunner) (request : RunRequest) (validated : ValidatedRunRequest) :
    ExecM RunResponse := do
  let session ← runStore (SessionStore.loadRuntimeSession request)
  .call (.ensureContainerRunning runner.containerName) (mapErr "container_unavailable")
  let started ← instantNow
  let first ← runner.executeOnce request validated session
  if shouldRetryWithFreshSession first session.isNew then
    let resetSession ← runStore (SessionStore.resetRuntimeSession request)
    let retried ← runner.executeOnce request validated resetSession
    let now ← instantNow
    return retried.withDuration (now - started)
  else
    let now ← instantNow
    return first.withDuration (now - started)

end DockerRunner

end DogBot
