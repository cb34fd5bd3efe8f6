import G361FPlatform.Library.Outcome
import G361FPlatform.Library.Ring
import G361FPlatform.Library.Ownership
import G361FPlatform.MediaLib.Device
import G361FPlatform.MediaLib.Search
import G361FPlatform.MediaLib.Context
import G361FPlatform.MediaLib.RouteLaws
import G361FPlatform.MediaLib.ApplyLaws
import G361FPlatform.MediaLib.ContextLaws
import G361FPlatform.MediaLib.CountLaws
import G361FPlatform.MediaLib.Param
import G361FPlatform.MediaLib.Calls
import G361FPlatform.MediaLib.ParamLaws
import G361FPlatform.MediaLib.PortLaws
import G361FPlatform.MediaLib.TableLaws
import G361FPlatform.MediaLib.HolderLaws
import G361FPlatform.MediaLib.Init
import G361FPlatform.MediaLib.InitLaws
import G361FPlatform.MediaLib.RefusalLaws
import G361FPlatform.MediaLib.KillLaws
import G361FPlatform.MediaLib.OwnerLaws
import G361FPlatform.MediaLib.OwnerRunLaws
import G361FPlatform.MediaLib.SingleOwnerLaws
import G361FPlatform.Dhcp.Msg
import G361FPlatform.Library.OnesComplement
import G361FPlatform.Dhcp.Packet
import G361FPlatform.Dhcp.PacketLaws
import G361FPlatform.Dhcp.ReceiveLaws
import G361FPlatform.Dhcp.Decode
import G361FPlatform.Dhcp.Client
import G361FPlatform.Dhcp.ClientLaws
import G361FPlatform.Library.OptionList
import G361FPlatform.Dhcp.ParseLaws
import G361FPlatform.Dhcp.Dump
import G361FPlatform.Dhcp.DumpLaws
import G361FPlatform.Dhcp.RetransmitLaws
import G361FPlatform.Dhcp.Session
import G361FPlatform.Dhcp.SessionLaws
import G361FPlatform.Library.TopBits
import G361FPlatform.Dhcp.Netmask
import G361FPlatform.Dhcp.NetmaskLaws
import G361FPlatform.Dhcp.IntegrityLaws
import G361FPlatform.Qp.Codec
import G361FPlatform.Qp.CodecLaws
import G361FPlatform.Jpeg.Data
import G361FPlatform.Qp.LineLaws
import G361FPlatform.Qp.RobustLaws
import G361FPlatform.Qp.TextLaws
import G361FPlatform.Qp.AlphabetLaws
import G361FPlatform.Library.Lines
import G361FPlatform.Qp.WidthLaws
import G361FPlatform.Qp.Buffer
import G361FPlatform.Qp.BufferLaws
import G361FPlatform.Qp.TailLaws
import G361FPlatform.Jpeg.RoundLaws
import G361FPlatform.Library.Forward
import G361FPlatform.Jpeg.Load
import G361FPlatform.Jpeg.Save
import G361FPlatform.Jpeg.SaveLaws
import G361FPlatform.Jpeg.NoCopyLaws
import G361FPlatform.Jpeg.RoundTripLaws
import G361FPlatform.Jpeg.SetExif
import G361FPlatform.Jpeg.ExifBufferLaws
import G361FPlatform.Jpeg.ReparseLaws
import G361FPlatform.Dnsmasq.Route
import G361FPlatform.Library.Run
import G361FPlatform.Dnsmasq.RouteLaws
import G361FPlatform.Dnsmasq.MirrorLaws
import G361FPlatform.Library.Chain
import G361FPlatform.Dnsmasq.FlushLaws
import G361FPlatform.Dnsmasq.RollbackLaws
import G361FPlatform.Dnsmasq.Snooper
import G361FPlatform.Dnsmasq.SnooperLaws
import G361FPlatform.Dnsmasq.SnoopingLaws
import G361FPlatform.Dnsmasq.Listener
import G361FPlatform.Dnsmasq.ListenerLaws
import G361FPlatform.Dnsmasq.FramingLaws
import G361FPlatform.Dnsmasq.Ipv6Forward
import G361FPlatform.Dnsmasq.Ra
import G361FPlatform.Dnsmasq.Radv
import G361FPlatform.Dnsmasq.RaLaws
import G361FPlatform.Dnsmasq.WithdrawLaws
import G361FPlatform.Dnsmasq.Periodic
import G361FPlatform.Dnsmasq.PeriodicLaws
import G361FPlatform.Dnsmasq.FirewallLaws
import G361FPlatform.Dnsmasq.HostBitsLaws
import G361FPlatform.Library.Inet6
import G361FPlatform.Library.Slots
import G361FPlatform.Exif.Save
import G361FPlatform.Exif.Serial
import G361FPlatform.Exif.AlikeLaws
import G361FPlatform.Exif.SerialLaws
import G361FPlatform.Exif.ThumbnailLaws
import G361FPlatform.Dnsmasq.SrcRangeLaws
import G361FPlatform.MediaLib.EnableLaws
import G361FPlatform.MediaLib.BusyLaws
import G361FPlatform.MediaLib.FormatLaws
import G361FPlatform.MediaLib.BalanceLaws
import G361FPlatform.MediaLib.NodeLaws
import G361FPlatform.MediaLib.BoundsLaws
import G361FPlatform.Library.Digraph
import G361FPlatform.Library.Relax
import G361FPlatform.MediaLib.LevelLaws
import G361FPlatform.Library.Waves
import G361FPlatform.MediaLib.QueueLaws
import G361FPlatform.Library.Fuel
import G361FPlatform.MediaLib.RecursionLaws
import G361FPlatform.MediaLib.RoundLaws
import G361FPlatform.MediaLib.SearchLaws
import G361FPlatform.MediaLib.NullLaws
import G361FPlatform.MediaLib.PadLaws
import G361FPlatform.Library.Ends
import G361FPlatform.MediaLib.ReachLaws
import G361FPlatform.MediaLib.NodeQLaws
import G361FPlatform.Dhcp.ChecksumLaws
import G361FPlatform.MediaLib.ChainLaws
import G361FPlatform.CharDet.Prober
import G361FPlatform.Library.Leader
import G361FPlatform.CharDet.GuessLaws
import G361FPlatform.CharDet.Detector
import G361FPlatform.CharDet.PollLaws
import G361FPlatform.CharDet.DetectorLaws
import G361FPlatform.Dnsmasq.Servers
import G361FPlatform.Library.OwnedLists
import G361FPlatform.Dnsmasq.ServersLaws
import G361FPlatform.Dnsmasq.Names
import G361FPlatform.Dnsmasq.NameLaws
import G361FPlatform.Dnsmasq.NameWalkLaws
import G361FPlatform.Dnsmasq.QuestionLaws
import G361FPlatform.Dnsmasq.RecordLaws
import G361FPlatform.Dnsmasq.Forward
import G361FPlatform.Dnsmasq.FrecLaws
import G361FPlatform.Dnsmasq.PointerLaws
import G361FPlatform.Dnsmasq.SocketLaws
import G361FPlatform.Exif.Load
import G361FPlatform.Exif.LoadLaws
import G361FPlatform.Exif.RestoreLaws
import G361FPlatform.Exif.RoundTripLaws
import G361FPlatform.Jpeg.ExifLaws
