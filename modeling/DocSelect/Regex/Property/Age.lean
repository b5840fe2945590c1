import DocSelect.Regex.Property.Table

/-!
# Ages

The version of the character set that first has a character. Asked for a version, one gets all
characters up to it.
-/
namespace DocSelect.Regex.Property

/-- The versions in order, by name, and what each adds. -/
def ages : List (List String × Table) := [
  (["1.1", "v11"],
    .listed "0hv54hdj8l87ie19h6k5ha1h21403056101h31ib16301010101h1db1k11b1i89j421213hb2721j7i526
       1i610i6918cha54h70e0301h95h2dd2k7241e1hd29ig721j42h1243h8h0217212h51610332016212290
       41142h47025412h51611111120144122b3107ec21610121h516111429121220f059h1217212h5161123
       2731228141124ah111532133110113132371244321390fbe217121h61914461213719149h2117121h61
       91446121371701149h2117121h61f452213908149p1j94hci51102110206316121010211c1224101529
       21hs2i5ai6404l95k35l1sg6pa5l96h5252i525271010101he2j41e1d251h222181ie1h6i363hah1ai5
       h1hej8haifdlah5v1e01n8o5i4hbah5oah5p5akfh0h36l5p13132hb1i21013301626ehe3h71dok1j770
       1l3452ld6i74ld1fm0hc3i3hchb3j1fb4ie1n64m22hehqg1lhq5kglahqidt26c46h8141011111mbi1hm
       ch0jf2j5i8bi43ch4491h21342101o6201ld2ld352525223616e2"),
  (["2.0", "v20"],
    .listed "lp1h01ch40pjbk71i07ha45101h43610uu10igf0orl4irq3hiola1vvve1vvve1vvve1vvve1vvve1vvve
       1vvve1vvve1vvve1vvve1vvve1vvve1vvveiggg1"),
  (["2.1", "v21"],
    .listed "igqc0tvkf0"),
  (["3.0", "v30"],
    .listed "hv63he72h1n54j10a4l78h30n4030101010he0c0k20c0ia123lc1pc0s82m2150f0ia41d1hd3haj5j0lt
       111h13h718102630451017h22hn50ib0h7270121e20j0i1141116336h9hq661je10132610132i610132
       he101326101326161h61he1013261i61h26hbi3l4cin59hc3l0oflc39h6e196l78i9no50h85lf2j21l5
       1k80m78hgd0n901hdoa1hs97i10l61hoevflo0h91l8ct5habjc230hm1h7ik8hpr5likakoc3h12f1b121
       0lml60ktb2"),
  (["3.1", "v31"],
    .listed "jv41vptahflh0he13char5i52i5srr2v5ai63r3ii2l41k6112021231b1013111k01327161hb13141036
       1hl14hi14j1iog0qmt6lhi9ihdrglu30helf"),
  (["3.2", "v32"],
    .listed "ii00hie0h3cm81hc0p31j912121j1fhle1hk10pk51mg7c16bh69h3cc1211ot30644074d0je1j26l2eq8
       bv2dnc0hej3hhch3p79l87h61lab29tedlahb4fhg0hvfljb2l7181le0v0fl1el1enhu21h00c030llmaj
       ajp103fj51ic0ub1"),
  (["4.0", "v40"],
    .listed "ii10h22n71jfh0l0752p74ig4398k02p51f0id2hd2hr40r80k3010o80l42d0k30jb0o17s11rhf0h29hg
       6hc3b4b403i924mbhfjg0mbiu71u60ip31hie0hh41n47e1kledngf1j10ib1ke3q73m31hf0hps0jfqvvd
       0k91hr7b1h91h2111e2di2na524ic38ik0hd10o61i6kf29jl65201ib113020sqs0l6hma0sisjeuf"),
  (["4.1", "v41"],
    .listed "ij7ahh64pf3v61qa0i22k30h20ja5v1hdigf0l00hu70if0ju91hi7110hga0jf0jf0i70hf0hf0hf0f0i7
       0h71hfh9lu6i96h96941i0hb21jkcl7ip1116j14hd3j50l00f0io4aijc0m51h2a5fhge6jk75ucie1iei
       1maeicaj590h0h69616161616161616i1h741jq2fqe0mti7h5nk4h6u9iblik4m9jj69ji6kaih5i34dmi
       a31157121ha424888snq7k5kle1"),
  (["5.0", "v50"],
    .listed "ik2dhib2hl10ia5h03q60ig5jaho0111jm21d1ugdkb4icik76j31iuc3ld1j50il7bisa0hh43jk9653hj
       cc73nqpf351hhej7mgo8h950hmu0jmep1m2d3quuch1kl81"),
  (["5.1", "v51"],
    .listed "jn0321l70r70ocfu24b4i04hieh1hv11te0i30se0hd1mc0mc0ha181h47rd060hd1c536hub1m1032kd05
       0207245hajf41oga0it5ia3bk6j73e3j2hkbhbr53la5hm40ob0le0j53lh40h5933hg80hf3jib44i834h
       h821245hm2hfh832h2ivc0q2h3mtt87ljchibh4hf2h18hbo342mame4o0k49bi6l3b0q0j69d2923ljs42
       jm9bj4ido2hc3j0mkfh950snu90hut6ib4m3"),
  (["5.2", "v52"],
    .listed "li41itaid2es10kd060i31o00lt93s13rc4k44l25ig00in68ij0k5r41ie0k5je1hc2a696dii2i2hga0i
       r82p72j60ile0ir51hd2491h2104h7l70jvd4hh60d1mb6hjf0kh2bmtn47lg4ifhq0l7hj89q6hbm4hc3k
       d1a41o0hb4k2h84u0id29irr6h64j0iimf2tt2h518ra1hk4hfo0j53hc2ha57o0k8ih7heig1k1hvjekie
       rst1a5he20b0102030348070h901120a320mf0fi1e8rkr7hgj4"),
  (["6.0", "v60"],
    .listed "li61v80je0hu0hb20tb1h3061hb4hva5hr10h00h30ijd3k91jo21om1j383hvc0ip87hc0jifaita0h301
       3hd041hc0i30104291j42h80e0e1lq00e0kj82nkq51hib111e9l00jg6525259616lgo3fhkjekd4hdlnp
       0ij8kls71kgpee2d2e1el001a10111212571619681021194119kbh911if8h51qei0f51k53h3ci414h5h
       0fje101r5133jdh2h7p341f1210101012152310231b4aj0k5jan3rvsctd"),
  (["6.1", "v61"],
    .listed "lof0n40ipb01aj7hahv10jud1hu7050if2qqb2c5hg07ib3qt4010li41j3050j81sa9nhp00mq77i30v21
       h60kd1iu6h6kvj71vl0j761nh0h8796j41djck879kq6j789loj6k4bieh0h0num031ha11102019131010
       60401010121110201010101011102316131310191h052141h0j41in81jt43rc0h003010101030614011
       40"),
  (["6.2", "v62"],
    .listed "igra0"),
  (["6.3", "v63"],
    .listed "mhc0hqk93"),
  (["7.0", "v70"],
    .listed "jnf0hq87ld1n60ipb0b5kc0n8070inf0j30kc0nf0u49pg17ii41hp1eij91udeis52jj66jg50kkc2ah92
       hf2i13b17ima6nol55v6bb221k50hu8hend3r0if41lis16jld1h30hjfhbi30j0iaho5i78j3b0p0hj69h
       5a7v8je88ht0hfi0i64bo9h173c6ksf0t0i6l60c06h3bh11ian2ja597217212h5161114282122905626
       34hgbk789q6j52h1j6k4b9ik6l2c0hs0j8on6i9sab50klsbhe1941m0hd25ak5a9161h45h2lgn0ma5c38
       7927irlcs42fnu80i0h5h51ih4b90k60h6bi50535bh16k7010r6041jf146hdh11i81l5k61difk69h0c3
       3ocl4ibb4j7896i78hd"),
  (["8.0", "v80"],
    .listed "or31ie0ih50hm00hg40mp5025ss00sb1qm03njtd8ms80v00i25hk41im23ckflime1qr0h21154rc12f2i
       dio0j2dj275ks93e4q0610131e1al60kf0in9h3hi2h93e4fsl90u6s3hurcik6orp7amh7iobf41ehond2
       ke1kf4i47vf0kb4v31ob0ijf8m74jb0rulfhmo1"),
  (["9.0", "v90"],
    .listed "or67h6ejpd0se04216h72vg78hn20lvf3qk41npm90hh60los71ji1i34i3tk20hs1l91010ig2clp381ic
       1dahc3hf2h51dlji90hfhnuch3iv2llgd61h0261114ot5ka5941ojbh1oe0jje0i90hic1i12ii2517802
       b1b4ei6c"),
  (["10.0", "v100"],
    .listed "om0ahp11vc5ig00ja1vra0ve3is50jjf0nt20in24iu40muq7h4mjk22hmt0k78j32h614ild6111ib3011
       1889lio70kgi0hhcl1hobjvm45kmd1i21ig7bh308711h90h2ci65j8h6tks9htj0"),
  (["11.0", "v110"],
    .listed "lm00i70m60igd2t30hia0n70hod0nf0rv30kh7ia22uva2h6h84eikb4iu00murb4nrf081hk41mhj41h20
       ir7i789hs6i78i9hn30n62hv40hi20irb0u5jbim10is25111i4111579hj6h8kvk7lahpl24kqueh3ne6h
       ov8k3kna0ls90tb3hn42hc4233013h8ad971i4h8m0d"),
  (["12.0", "v120"],
    .listed "sn70ige020201540707120d0ujf0use0j50ikf0npma524jpf1mkn8h6km80il80iu772id2apf1ljaj1d0
       hkj08jrgc540if8la1hoge5ipl82h13ivp8ic3d2941hn0j950mkb0jr5jckie0lm80i40u5bhi12if0j10
       90i9531a53722j0l3hc34252d5"),
  (["12.1", "v121"],
    .listed "jivf0"),
  (["13.0", "v130"],
    .listed "ore9iod0hqe0nc0tjd1hgt60ir82jm84hrv69lij0cnsa3ia1j50jjb3lmj00su3i91221vehbhnb0o61io
       a051kpe62027111hd112b99ml60lgj30b1hrg1hu2ia8mkg42ld2jd0li81i31hr31la0m5041ia162hd0q
       80e3fh27692d6i9p21j6i59qqtd6lpi2hjka"),
  (["14.0", "v140"],
    .listed "mhd0il2he1167h50h2ajm90i00nf0qif07090uf0ir1dnd0j01inb0is50rme0if0hv3anhpf2ns01e1101
       4h82ljsd0hndfnf0ie1nn0a1e16111a1e1611hs351i918nr5h9u65kc0lv60o66jm9fhkt0m2jqndke19k
       li631611hi03httdid2h69n3ii51th5hejn1helj1613111eute2hh00ho80l20qe1ic3a382h126786qru
       71hgl53"),
  (["15.0", "v150"],
    .listed "sv30hta0hggie2jjf2ore9jv6h01i83hbhkt509hcnstc0i20ihmah3sl15hg5jdi10kk0i9hhu20p7244l
       90ipb2f1i42b210e1a1c0e1rsk00lsh6hglf"),
  (["15.1", "v151"],
    .listed "ivvc3huf0irqg0imd"),
  (["16.0", "v160"],
    .listed "op70hir61if0hg91npc2tra1nlu52c2ltu3j3nkci53hc81hj22j70ko3910201i519102013191181iudh
       3ktci1e9jm00hlg5vpahtg5j9sg6j9hvo50jvg0v96hr3hnhcia40hir2941hs7050ie070h502090u1i4")]

/-- All that came up to and with a version. -/
def age? (name : String) : Option Table :=
  let later := ages.dropWhile fun (names, _) => !names.contains name
  if later.isEmpty then none
  else
    let upTo := ages.take (ages.length - later.length + 1)
    some (upTo.foldl (fun t (_, added) => t ∪ added) .nothing)

end DocSelect.Regex.Property
