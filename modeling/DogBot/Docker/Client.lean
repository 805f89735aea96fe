import DogBot.Exec.Runner
import DogBot.Library.Expand

/-! # The Docker client

Every run makes sure that the container runs before it executes Claude there.
The container is inspected first; if there is none it is created, and another
run may have created it in the meantime.
-/

namespace DogBot

structure ContainerSpec where
  containerName : String
  imageName : String
  workspaceDir : String
  stateDir : String
  anthropicBaseUrl : String
  anthropicApiKey : String
  bifrostPort : ℕ
  bifrostProviderName : String
  bifrostModel : String
  bifrostUpstreamBaseUrl : String
  bifrostUpstreamApiKey : String
  bifrostUpstreamProviderType : String
  cpuCores : ℕ
  memoryMb : ℕ
  diskGb : ℕ
  pidsLimit : ℤ

structure HostConfig where
  nanoCpus : ℤ
  memory : ℤ
  memorySwap : ℤ
  pidsLimit : ℤ
  readonlyRootfs : Bool
  binds : List String
  tmpfs : List (String × String)
  extraHosts : List String
  deriving DecidableEq, Repr

structure ContainerConfig where
  image : String
  env : List String
  workingDir : String
  hostConfig : HostConfig
  deriving DecidableEq, Repr

/-- The signed number of 64 bits that a product overflows to. -/
def wrapI64 (n : ℤ) : ℤ := n.bmod (2 ^ 64)

def ContainerSpec.createConfig (spec : ContainerSpec) : ContainerConfig where
  image := spec.imageName
  env :=
    ["ANTHROPIC_BASE_URL=" ++ spec.anthropicBaseUrl,
      "ANTHROPIC_API_KEY=" ++ spec.anthropicApiKey,
      "ANTHROPIC_DEFAULT_SONNET_MODEL=" ++ spec.bifrostModel,
      "ANTHROPIC_DEFAULT_HAIKU_MODEL=" ++ spec.bifrostModel,
      "ANTHROPIC_DEFAULT_OPUS_MODEL=" ++ spec.bifrostModel,
      "CLAUDE_CONFIG_DIR=/state/claude",
      "CLAUDE_CODE_ADDITIONAL_DIRECTORIES_CLAUDE_MD=1",
      "CLAUDE_CODE_DISABLE_AUTO_MEMORY=1",
      "CLAUDE_CODE_DISABLE_NONESSENTIAL_TRAFFIC=1",
      "CLAUDE_CODE_DISABLE_TERMINAL_TITLE=1",
      "CLAUDE_CODE_ATTRIBUTION_HEADER=0",
      "BIFROST_PORT=" ++ Nat.repr spec.bifrostPort,
      "BIFROST_PROVIDER_NAME=" ++ spec.bifrostProviderName,
      "BIFROST_MODEL=" ++ spec.bifrostModel,
      "BIFROST_UPSTREAM_PROVIDER_TYPE=" ++ spec.bifrostUpstreamProviderType,
      "BIFROST_UPSTREAM_BASE_URL=" ++ spec.bifrostUpstreamBaseUrl,
      "BIFROST_UPSTREAM_API_KEY=" ++ spec.bifrostUpstreamApiKey]
  workingDir := "/workspace"
  hostConfig :=
    { nanoCpus := wrapI64 (spec.cpuCores * 1000000000)
      memory := wrapI64 (spec.memoryMb * 1024 * 1024)
      memorySwap := wrapI64 (spec.memoryMb * 1024 * 1024)
      pidsLimit := spec.pidsLimit
      readonlyRootfs := true
      binds := [spec.workspaceDir ++ ":/workspace", spec.stateDir ++ ":/state"]
      tmpfs := [("/tmp", "size=256m,mode=1777"), ("/run", "size=64m")]
      extraHosts := ["host.docker.internal:host-gateway"] }

inductive BollardError
  | dockerResponseServerError (statusCode : ℕ) (message : String)
  | other (message : String)

def BollardError.hasStatus : BollardError → ℕ → Bool
  | dockerResponseServerError statusCode _, code => statusCode = code
  | other _, _ => false

/-- The part of a container's state that is read. -/
structure ContainerState where
  running : Option Bool

structure ContainerInspectResponse where
  state : Option ContainerState

/-- The requests to the daemon that concern a container as a whole. -/
inductive DockerOp
  | inspectContainer (containerName : String)
  | createContainer (containerName : String) (config : ContainerConfig)
  | startContainer (containerName : String)

abbrev DockerOp.Result : DockerOp → Type
  | inspectContainer _ => Except BollardError ContainerInspectResponse
  | createContainer _ _ => Except BollardError Unit
  | startContainer _ => Except BollardError Unit

abbrev DockerM (α : Type) := Program DockerOp DockerOp.Result BollardError α

namespace ContainerSpec

variable (spec : ContainerSpec)

def startContainer : DockerM Unit := .call (.startContainer spec.containerName) .ofExcept

/-- A container that another run has created is as good as an own one. -/
def createAndStart : DockerM Unit :=
  .call (.createContainer spec.containerName spec.createConfig) fun
    | .ok _ => spec.startContainer
    | .error err => if err.hasStatus 409 then spec.startContainer else .fail err

def ensureContainerRunning : DockerM Unit :=
  .call (.inspectContainer spec.containerName) fun
    | .ok container =>
      let isRunning := (container.state.bind ContainerState.running).getD false
      if isRunning then .ret () else spec.startContainer
    | .error err => if err.hasStatus 404 then spec.createAndStart else .fail err

end ContainerSpec

/-- The operations of a run, with the requests to the daemon. -/
inductive ContainerOp
  | session (op : SessionOp)
  | docker (op : DockerOp)
  | createReadGrants (grants : List HistoryReadGrant)
  | createClaudeExec (containerName cwd : String) (command env : List String)
  | collectExecOutput (execId : String)
  | instantNow

abbrev ContainerOp.Result : ContainerOp → Type
  | session op => op.Result
  | docker op => op.Result
  | createReadGrants _ => Except String HistoryReadGrantToken
  | createClaudeExec _ _ _ _ => Except String String
  | collectExecOutput _ => Except String (String × String × ℤ)
  | instantNow => ℕ

abbrev ContainerM (α : Type) := Program ContainerOp ContainerOp.Result ErrorResponse α

section Run

variable (toString : BollardError → String) (spec : ContainerSpec)

/-- An operation of a run in terms of requests to the daemon. -/
def inContainer : (op : ExecOp) → ContainerM op.Result
  | .session op => .call (.session op) .ret
  | .ensureContainerRunning _ =>
    (spec.ensureContainerRunning.hoist .docker (fun _ answer => answer) toString).attempt
  | .createReadGrants grants => .call (.createReadGrants grants) .ret
  | .createClaudeExec containerName cwd command env =>
    .call (.createClaudeExec containerName cwd command env) .ret
  | .collectExecOutput execId => .call (.collectExecOutput execId) .ret
  | .instantNow => .call .instantNow .ret

/-- A run whose container is the one of a specification. -/
def ContainerSpec.execute (settings : Settings) (request : RunRequest)
    (validated : ValidatedRunRequest) : ContainerM RunResponse :=
  ((DockerRunner.mk spec.containerName settings).execute request validated).expand
    (inContainer toString spec)

end Run

end DogBot
