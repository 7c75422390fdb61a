import LinkRegistry.PublicKey

/-!
# Accounts

Local accounts, with or without a public profile. An earlier shape of the profile held its two
pictures as fields of its own.
-/

namespace LinkRegistry

/-- What every account holds. -/
structure BaseAccount where
  address : String
  publicKey : Option PublicKey
  accountNumber : UInt64
  sequence : UInt64

/-- The pictures of a profile. -/
structure Pictures where
  profile : String
  cover : String

/-- An account with public profile data. -/
structure Profile where
  account : BaseAccount
  dtag : String
  nickname : String
  bio : String
  pictures : Pictures
  creationTime : UInt64

/-- A profile with its pictures side by side. -/
structure FlatProfile where
  account : BaseAccount
  dtag : String
  nickname : String
  bio : String
  profilePicture : String
  coverPicture : String
  creationTime : UInt64

/-- A stored account. -/
inductive Account
  | base (account : BaseAccount)
  | profiled (profile : Profile)

/-- A stored account of the earlier shape. -/
inductive FlatAccount
  | base (account : BaseAccount)
  | profiled (profile : FlatProfile)

/-- The base account inside an account. -/
def Account.baseAccount : Account → BaseAccount
  | .base account => account
  | .profiled profile => profile.account

/-- The profile with its pictures grouped. -/
def FlatProfile.group (profile : FlatProfile) : Profile where
  account := profile.account
  dtag := profile.dtag
  nickname := profile.nickname
  bio := profile.bio
  pictures := ⟨profile.profilePicture, profile.coverPicture⟩
  creationTime := profile.creationTime

/-- The account in the present shape. -/
def FlatAccount.group : FlatAccount → Account
  | .base account => .base account
  | .profiled profile => .profiled profile.group

open Binary.Codec (text word64)

def BaseAccount.codec : Binary.Codec BaseAccount :=
  (text.pair (PublicKey.codec.option.pair (word64.pair word64))).via
    (fun (address, publicKey, accountNumber, sequence) =>
      ⟨address, publicKey, accountNumber, sequence⟩)
    (fun account => (account.address, account.publicKey, account.accountNumber, account.sequence))

def Pictures.codec : Binary.Codec Pictures :=
  (text.pair text).via (fun (profile, cover) => ⟨profile, cover⟩)
    (fun pictures => (pictures.profile, pictures.cover))

def Profile.codec : Binary.Codec Profile :=
  (BaseAccount.codec.pair (text.pair (text.pair (text.pair (Pictures.codec.pair word64))))).via
    (fun (account, dtag, nickname, bio, pictures, creationTime) =>
      ⟨account, dtag, nickname, bio, pictures, creationTime⟩)
    (fun profile =>
      (profile.account, profile.dtag, profile.nickname, profile.bio, profile.pictures,
        profile.creationTime))

def FlatProfile.codec : Binary.Codec FlatProfile :=
  (BaseAccount.codec.pair
      (text.pair (text.pair (text.pair (text.pair (text.pair word64)))))).via
    (fun (account, dtag, nickname, bio, profilePicture, coverPicture, creationTime) =>
      ⟨account, dtag, nickname, bio, profilePicture, coverPicture, creationTime⟩)
    (fun profile =>
      (profile.account, profile.dtag, profile.nickname, profile.bio, profile.profilePicture,
        profile.coverPicture, profile.creationTime))

def Account.codec : Binary.Codec Account :=
  (BaseAccount.codec.either Profile.codec).via
    (fun
      | .inl account => .base account
      | .inr profile => .profiled profile)
    (fun
      | .base account => .inl account
      | .profiled profile => .inr profile)

def FlatAccount.codec : Binary.Codec FlatAccount :=
  (BaseAccount.codec.either FlatProfile.codec).via
    (fun
      | .inl account => .base account
      | .inr profile => .profiled profile)
    (fun
      | .base account => .inl account
      | .profiled profile => .inr profile)

end LinkRegistry
