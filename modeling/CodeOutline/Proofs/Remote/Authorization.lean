import CodeOutline.Proofs.Remote.Listing

/-!
# What the token is seen in

The token goes into the authorization of each request and nowhere else: a client with another token
answers, fails and reports as before, and its requests are the same but for their authorization. To
have another token is to change each request (`Client.request_withToken`), and a call whose requests
are changed is put together as the call itself is (`Call.relabel`).
-/

namespace CodeOutline.Remote

open CodeOutline.Data CodeOutline.Log CodeOutline.Text

/-! ## Calls with other requests -/

namespace Call

variable {α β : Type} (f : Request → Request)

/-- The call with its requests changed. -/
def relabel (c : Call α) : Call α := { c with requests := c.requests.map f }

theorem relabel_ofExcept (result : Except RemoteFault α) :
    (ofExcept result).relabel f = ofExcept result := rfl

theorem relabel_pure (a : α) : (pure a : Call α).relabel f = pure a := rfl

theorem relabel_note (event : Event) : (note event).relabel f = note event := rfl

theorem relabel_bind (c : Call α) (next : α → Call β) :
    (c >>= next).relabel f = c.relabel f >>= fun a => (next a).relabel f := by
  change (c.andThen next).relabel f = (c.relabel f).andThen fun a => (next a).relabel f
  obtain ⟨result, requests, events⟩ := c
  cases result with
  | error fault => rfl
  | ok a => simp only [andThen, relabel, List.map_append]

theorem relabel_orElse (c : Call α) (other : FetchFault → Call α) :
    (c.orElse other).relabel f = (c.relabel f).orElse fun fault => (other fault).relabel f := by
  obtain ⟨result, requests, events⟩ := c
  cases result with
  | ok a => rfl
  | error fault =>
    cases fault with
    | fetch fault => simp only [orElse, relabel, List.map_append]
    | _ => rfl

theorem relabel_mapM (step : α → Call β) (items : List α) :
    (items.mapM step).relabel f = items.mapM fun a => (step a).relabel f := by
  induction items with
  | nil => rfl
  | cons a rest ih => simp only [List.mapM_cons, relabel_bind, relabel_pure, ih]

end Call

/-! ## Clients with another token -/

/-- The request with the authorization that a token gives. -/
def Request.withToken (token : String) (r : Request) : Request :=
  { r with authorization := some ("Bearer " ++ token) }

namespace Client

/-- The client with another token. -/
def withToken (token : String) (c : Client) : Client := { c with token := some token }

variable {token : String} (h : token ≠ "") (c : Client) (net : Network)

include h

theorem request_withToken (url accept : String) :
    (c.withToken token).request url accept = (c.request url accept).withToken token := by
  have given : token.isEmpty = false := by simpa using h
  simp only [request, withToken, Request.withToken, given]
  rfl

theorem get_withToken (url accept : String) :
    (c.withToken token).get net url accept =
      (c.get net url accept).relabel (Request.withToken token) := by
  simp only [get, request_withToken h, Call.relabel, List.map_cons, List.map_nil]

theorem getJson_withToken (url : String) :
    (c.withToken token).getJson net url =
      (c.getJson net url).relabel (Request.withToken token) := by
  rw [getJson, getJson, Call.relabel_bind, get_withToken h]
  refine congrArg _ (funext fun ⟨octets, media⟩ => ?_)
  dsimp only
  cases Json.read octets with
  | ok d => rfl
  | error fault => cases fault <;> rfl

theorem latestCommit_withToken (owner name : String) :
    (c.withToken token).latestCommit net owner name =
      (c.latestCommit net owner name).relabel (Request.withToken token) := by
  rw [latestCommit, latestCommit, Call.relabel_bind, getJson_withToken h]
  rfl

theorem metadata_withToken (owner name : String) :
    (c.withToken token).metadata net owner name =
      (c.metadata net owner name).relabel (Request.withToken token) := by
  rw [metadata, metadata, Call.relabel_bind, Call.relabel_note]
  refine congrArg _ (funext fun _ => ?_)
  rw [Call.relabel_bind, getJson_withToken h]
  refine congrArg _ (funext fun d => ?_)
  cases d with
  | map entries =>
    rw [Call.relabel_bind, ← latestCommit_withToken h]
    rfl
  | _ => rfl

theorem contentsOf_withToken (owner name : String) (path : Datum) (isRoot : Bool) :
    (c.withToken token).contentsOf net owner name path isRoot =
      (c.contentsOf net owner name path isRoot).relabel (Request.withToken token) := by
  unfold contentsOf
  dsimp only
  rw [Call.relabel_orElse]
  congr 1
  · rw [Call.relabel_bind, Call.relabel_ofExcept]
    refine congrArg _ (funext fun parts => ?_)
    rw [Call.relabel_bind, ← getJson_withToken h]
    rfl
  · funext fault
    cases isRoot <;> rfl

/-- Descending into a directory, by induction on the depth that is left. -/
theorem filesBelow_withToken (owner name : String) (depth : Nat) (path : Datum) (isRoot : Bool) :
    (c.withToken token).filesBelow net owner name depth path isRoot =
      (c.filesBelow net owner name depth path isRoot).relabel (Request.withToken token) := by
  induction depth generalizing path isRoot with
  | zero => rfl
  | succ depth ih =>
    rw [filesBelow, filesBelow, Call.relabel_bind, contentsOf_withToken h]
    refine congrArg _ (funext fun contents => ?_)
    cases contents with
    | none => rfl
    | some contents =>
      dsimp only
      rw [Call.relabel_bind, Call.relabel_ofExcept]
      refine congrArg _ (funext fun entries => ?_)
      rw [Call.relabel_bind, Call.relabel_mapM]
      congr 2
      funext entry
      cases entry with
      | map fields =>
        dsimp only
        -- Only a directory is asked for; what else is listed is taken as it is.
        split
        · exact ih _ _
        · rfl
        · rfl
      | _ => rfl

theorem listFiles_withToken (owner name basePath : String) :
    (c.withToken token).listFiles net owner name basePath =
      (c.listFiles net owner name basePath).relabel (Request.withToken token) := by
  rw [listFiles, listFiles, Call.relabel_bind, filesBelow_withToken h]
  rfl

theorem fileText_withToken (owner name path : String) :
    (c.withToken token).fileText net owner name path =
      (c.fileText net owner name path).relabel (Request.withToken token) := by
  rw [fileText, fileText, Call.relabel_bind, get_withToken h]
  refine congrArg _ (funext fun ⟨octets, media⟩ => ?_)
  dsimp only
  split <;> rfl

end Client

end CodeOutline.Remote
