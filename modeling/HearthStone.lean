import HearthStone.Guild.DailyLimits
import HearthStone.Auction.Ledger
import HearthStone.Trade.TradeItems
import HearthStone.Mail.Attachments
import HearthStone.Item.InventoryRuns
import HearthStone.Network.OnRead
import HearthStone.Group.Roles
import HearthStone.Group.Persistence
import HearthStone.Object.Replica
import HearthStone.Event.Scheduling
import HearthStone.Loot.LootRollTheorems
import HearthStone.Chat.Mirror
import HearthStone.Arena.RosterRuns
import HearthStone.Quest.QuestIndex
import HearthStone.Shared.HashmapTheorems
import HearthStone.Packet.StackBufferFaithful
import HearthStone.Map.CellActivityTheorems
import HearthStone.Creature.WayPointTheorems
import HearthStone.Logon.WriteThrough
import HearthStone.Logon.PatchTransfer
import HearthStone.Session.HandOver
import HearthStone.Session.OneSession
import HearthStone.Instance.Entry
import HearthStone.Creature.VehicleTheorems
import HearthStone.Logon.LinkTheorems
import HearthStone.Creature.CombatRun
import HearthStone.Player.SocialTheorems
import HearthStone.Player.SkillTheorems
import HearthStone.Spell.AuraEffectsTheorems
import HearthStone.Spell.AuraTableTheorems
import HearthStone.Item.ItemIterator
import HearthStone.Map.MapObjectsTheorems
import HearthStone.Item.RemoveItemTheorems
import HearthStone.Auction.AuctionList
import HearthStone.Session.AddonMgr
import HearthStone.Arena.Finish
import HearthStone.Shared.StorageTheorems
import HearthStone.Logon.CIDRBan
import HearthStone.Player.ReputationTheorems
import HearthStone.Loot.PushLoot
import HearthStone.Group.LfgMgrTheorems
import HearthStone.Arena.RatedQueueTheorems
import HearthStone.Shared.ConfigTheorems
import HearthStone.Vendor.BuyItemOpcodeTheorems
import HearthStone.Shared.StorageBlocks
import HearthStone.Mail.MailRow
import HearthStone.Instance.InstanceRow
import HearthStone.Quest.ProgressTheorems
import HearthStone.Quest.LogFields
import HearthStone.Arena.AverageQueueTime
import HearthStone.Loot.LootMoney
import HearthStone.Logon.FixedWidth
import HearthStone.Logon.ChallengeParserTheorems
import HearthStone.Object.MaskOperators
import HearthStone.Player.CooldownTheorems
import HearthStone.Creature.ThreatRedirect
import HearthStone.Creature.Patrol
import HearthStone.Player.ExperienceTheorems
import HearthStone.Logon.CharacterMapping
import HearthStone.Spell.PowerCostTheorems
