import KeyCustody.StoreError

/-!
# Warnings

What deserves attention but does not stop the work.
-/

namespace KeyCustody

inductive Warning
  /-- The token would be sent to another machine over an open connection. -/
  | exposedUrl (url : String)
  /-- The operation at a position of its queue was not undone. -/
  | notUndone (index : Nat) (mount : String) (error : StoreError)
  /-- A client was not released. -/
  | notReleased (report : String)
deriving DecidableEq, Repr

def Warning.message : Warning → String
  | .exposedUrl _ => "Vault url is not TLS protected"
  | .notUndone _ _ _ => "Rollback failed"
  | .notReleased _ => "Closing the Vault client failed"

end KeyCustody
