import AgentGate.Embedded
import AgentGate.Workflow.Basic

/-!
# Tokens of handler jobs

A handler job acts with the token of its type, or else with the token that a GitHub App mints for
it, or else with one of the tokens that the workflow names. A minted token is revoked at the end.

- `Token.effective`: the first token of two that is not empty, or the fallback.
- `Token.ofSettings`: the token of a type.
- `Token.mintStep`, `Token.revokeStep`: the life of a minted token.
-/

namespace AgentGate.Token

/-- The token when none is named. -/
def fallback : String :=
  Embedded.embed "secrets.GH_AW_GITHUB_TOKEN || secrets.GITHUB_TOKEN"

/-- The identifier of the step that mints a token. -/
def mintId : String := "app-token"

/-- The token that the step mints. -/
def minted : String :=
  Embedded.embed (Embedded.stepOutput mintId "token")

/-- The first token that is not empty, or the fallback. -/
def effective (custom topLevel : String) : String :=
  if custom ≠ "" then custom else if topLevel ≠ "" then topLevel else fallback

/-- The token for all types: the minted one if there is an app, or the first token that the outputs
or the workflow name, or the empty text. -/
def topLevel (w : Workflow) (outputs : SafeOutputs) : String :=
  if outputs.app.isSome then minted
  else ((outputs.githubToken.toList ++ w.githubToken.toList).find? fun token => token ≠ "").getD ""

/-- The token of a type with given settings. -/
def ofSettings (settings : OutputSettings) (w : Workflow) (outputs : SafeOutputs) : String :=
  effective (settings.githubToken.getD "") (topLevel w outputs)

/-- The inputs that limit a token to some permissions. -/
def permissionInputs (permissions : Permissions) : List (String × String) :=
  (permissions.entries.filter fun entry => Level.none < entry.2).map fun entry =>
    ("permission-" ++ entry.1.name, entry.2.name)

/-- The step that mints a token with some permissions. -/
def mintStep (app : GitHubApp) (permissions : Permissions) : Step :=
  let repositories :=
    if app.repositories.isEmpty then Embedded.embed "github.event.repository.name"
    else ",".intercalate app.repositories
  { Step.ofAction "Generate GitHub App token" "actions/create-github-app-token@v2" with
    id := some mintId
    inputs := Table.ofList <|
      [("app-id", app.appId), ("private-key", app.privateKey),
        ("owner", app.owner.getD (Embedded.embed "github.repository_owner")),
        ("repositories", repositories)]
      ++ permissionInputs permissions }

/-- The step that revokes the minted token, whatever happened before. -/
def revokeStep : Step :=
  (Step.ofScript "Invalidate GitHub App token"
      "gh api --method DELETE /installation/token || true").withCondition "always()"
    |>.withEnv "GH_TOKEN" minted

end AgentGate.Token
