import GeoMaster.Domain.Base

/-!
# Channel accounts and the repository that stores them

Accounts, settings and import rows as the browser, network and login-queue operations see them. The
account store itself is another repository, reached through a trait object; an operation that calls
it receives what it answered, as the functions of a `ChannelReplies`.
-/

namespace GeoMaster

inductive ChannelStatus where
  | needsLogin
  | unverified
  | ready
  | disabled
  | expired
  deriving DecidableEq

inductive ChannelOwnerKind where
  | customer
  | operatorPool
  deriving DecidableEq

structure ChannelAccount where
  accountId : Uuid
  projectId : ProjectId
  ownerKind : ChannelOwnerKind
  platform : String
  groupId : Option Uuid
  status : ChannelStatus
  (displayName platformAccountId avatarUrl : Option String)
  (enabled proxyConfigured : Bool)
  proxyServer : Option String
  (createdAt updatedAt : DateTime)

structure PoolAccount where
  accountId : Uuid
  platform : String
  groupId : Option Uuid
  status : ChannelStatus
  (displayName platformAccountId avatarUrl : Option String)
  (enabled proxyConfigured : Bool)
  proxyServer : Option String
  (createdAt updatedAt : DateTime)

structure PoolAccountRecord where
  account : PoolAccount
  (session proxy : Option ChannelSecret)

structure PoolLoginSession where
  (sessionId accountId : Uuid)
  createdAt : DateTime

structure ChannelSettings where
  projectId : ProjectId
  defaultGroupId : Option Uuid
  proxyConfigured : Bool
  proxyServer : Option String
  updatedAt : DateTime

structure ChannelAccountRecord where
  account : ChannelAccount
  (session proxy : Option ChannelSecret)

structure ChannelSettingsRecord where
  settings : ChannelSettings
  proxy : Option ChannelSecret

inductive ChannelImportStatus where
  | needsLogin
  | failed
  deriving DecidableEq

structure ChannelImportRow where
  rowKey : String
  ordinal : Nat
  accountId : Option Uuid
  status : ChannelImportStatus
  (errorCode maskedUsername displayAlias : Option String)

/-- The envelope contains canonical input, not a verified browser session. -/
structure ChannelImportRecord where
  row : ChannelImportRow
  secretId : Uuid
  encryptedInput : ChannelSecret

end GeoMaster
