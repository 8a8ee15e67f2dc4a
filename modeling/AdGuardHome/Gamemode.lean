import AdGuardHome.Strings

/-! Package `gamemode`: the domains that the game mode lets pass. -/
namespace AdGuardHome.Gamemode

open Strings

/-- `GameCatalogItem.Platform`. -/
inductive Platform where
  | garena
  | tencent
  | general
deriving DecidableEq

/-- The values of `globalFocus`. -/
inductive Focus where
  | all
  | garena
  | tencent
deriving DecidableEq

/-- `GameCatalogItem`. -/
structure GameCatalogItem where
  platform : Platform
  domains : List String

/-- `BuiltinGameCatalog`. -/
def builtinGameCatalog : List GameCatalogItem :=
  [⟨.garena, ["freefiremobile.com", "ff.garena.com", "freefire.com", "ffsupport.garena.com",
      "dl.freefiremobile.com", "cdn.freefiremobile.com", "ff.garena.co.id", "garenafreefire.com"]⟩,
    ⟨.garena, ["garena.com", "garenanow.com", "garena.co.id", "garena.sg", "garena.ph", "garena.vn",
      "garena.my", "garenapb.com", "connect.garena.com", "auth.garena.com", "gas.garena.com",
      "shop.garena.co.id", "cdn.garenanow.com"]⟩,
    ⟨.garena, ["aov.garena.co.id", "aov.garena.com", "undawn.garena.com", "undawn.game",
      "codm.garena.co.id"]⟩,
    ⟨.tencent, ["pubgmobile.com", "igamecj.com", "proximabeta.com", "cdnpubg.com", "pubg.com",
      "krafton.com", "lightspeed.tencent.com", "voip.pubgmobile.com"]⟩,
    ⟨.tencent, ["honorofkings.com", "hok.proximabeta.com", "levelinfinite.com", "intlgame.com",
      "gvoice.intlgame.com", "gvoice.qq.com"]⟩,
    ⟨.tencent, ["tencentgames.com", "qcloudcdn.com", "qq.com", "gtimg.com", "idqqimg.com",
      "myqcloud.com", "timistudios.com", "callofduty.com", "activision.com"]⟩,
    ⟨.general, ["mobilelegends.com", "moonton.com", "youngjoygame.com", "akamaized.net"]⟩,
    ⟨.general, ["riotgames.com", "leagueoflegends.com", "pvp.net", "riotcdn.net",
      "val.services.riotcdn.net"]⟩,
    ⟨.general, ["steampowered.com", "steamcommunity.com", "steamstatic.com", "valve.net",
      "valvesoftware.com", "steamcontent.com"]⟩,
    ⟨.general, ["roblox.com", "rbxcdn.com", "robloxlabs.com"]⟩,
    ⟨.general, ["hoyoverse.com", "mihoyo.com", "yuanshen.com", "hoyolab.com"]⟩,
    ⟨.general, ["playstation.net", "playstation.com", "sonyentertainmentnetwork.com",
      "xboxlive.com", "xbox.com", "nintendo.net", "nintendo.com"]⟩,
    ⟨.general, ["discord.gg", "discord.media", "discordapp.com", "discord.com"]⟩]

/-- The variables that `IsGameDomain` reads. -/
structure State where
  globalEnabled : Bool
  globalFocus : Focus
  customDomains : List Bytes

def Focus.skips (focus : Focus) (game : GameCatalogItem) : Bool :=
  match focus with
  | .all => false
  | .garena => game.platform != .garena
  | .tencent => game.platform != .tencent

/-- `IsGameDomain`. -/
def State.isGameDomain (toLower : Bytes → Bytes) (s : State) (host : Bytes) : Bool :=
  if !s.globalEnabled then false
  else
    let host := toLower (trimSuffix (trimSpace host) (lit "."))
    if host = [] then false
    else if host ∈ s.customDomains then true
    else builtinGameCatalog.any fun game => !s.globalFocus.skips game &&
      game.domains.any fun d => host == lit d || hasSuffix host (lit ("." ++ d))

end AdGuardHome.Gamemode
